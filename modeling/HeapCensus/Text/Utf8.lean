set_option autoImplicit false

namespace HeapCensus.Text

def replacement : Char := '\uFFFD'

/-- What a first byte announces: how many bytes follow, the range of the second byte, and the bits that the
first byte carries. -/
structure Lead where
  follow : Nat
  low : Nat
  high : Nat
  bits : Nat

def lead? (byte : Nat) : Option Lead :=
  if byte ≤ 0x7F then some ⟨0, 0x80, 0xBF, byte⟩
  else if byte < 0xC2 then none
  else if byte ≤ 0xDF then some ⟨1, 0x80, 0xBF, byte - 0xC0⟩
  else if byte = 0xE0 then some ⟨2, 0xA0, 0xBF, byte - 0xE0⟩
  else if byte = 0xED then some ⟨2, 0x80, 0x9F, byte - 0xE0⟩
  else if byte ≤ 0xEF then some ⟨2, 0x80, 0xBF, byte - 0xE0⟩
  else if byte = 0xF0 then some ⟨3, 0x90, 0xBF, byte - 0xF0⟩
  else if byte = 0xF4 then some ⟨3, 0x80, 0x8F, byte - 0xF0⟩
  else if byte < 0xF4 then some ⟨3, 0x80, 0xBF, byte - 0xF0⟩
  else none

def follow : Nat → Nat → Nat → Nat → List UInt8 → Option Nat × List UInt8
  | 0, _, _, bits, bytes => (some bits, bytes)
  | _ + 1, _, _, _, [] => (none, [])
  | amount + 1, low, high, bits, byte :: rest =>
      if low ≤ byte.toNat && byte.toNat ≤ high then
        follow amount 0x80 0xBF (bits * 64 + (byte.toNat - 0x80)) rest
      else (none, byte :: rest)

theorem length_follow_le (amount low high bits : Nat) (bytes : List UInt8) :
    (follow amount low high bits bytes).2.length ≤ bytes.length := by
  induction amount generalizing low high bits bytes with
  | zero => simp [follow]
  | succ amount ih =>
      cases bytes with
      | nil => simp [follow]
      | cons byte rest =>
          rw [follow]
          split
          · exact Nat.le_succ_of_le (ih _ _ _ rest)
          · simp

def decodeUtf8 : List UInt8 → List Char
  | [] => []
  | byte :: rest =>
      match lead? byte.toNat with
      | none => replacement :: decodeUtf8 rest
      | some lead =>
          let read := follow lead.follow lead.low lead.high lead.bits rest
          (match read.1 with
            | some code => Char.ofNat code
            | none => replacement) :: decodeUtf8 read.2
termination_by bytes => bytes.length
decreasing_by
  · simp
  · exact Nat.lt_succ_of_le (length_follow_le _ _ _ _ rest)

end HeapCensus.Text
