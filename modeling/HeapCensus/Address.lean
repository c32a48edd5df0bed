import HeapCensus.Text.Decimal
import HeapCensus.Text.Split

set_option autoImplicit false

namespace HeapCensus

inductive HostAddress where
  | octets (values : List Nat)
  | groups (values : List Nat) (zone : Nat)
  deriving DecidableEq, Repr

structure SocketAddress where
  host : HostAddress
  port : Nat
  deriving DecidableEq, Repr

namespace SocketAddress

def port? (text : List Char) : Option Nat := (Text.readUnsigned text).filter (· < UInt16.size)

def octet? (text : List Char) : Option Nat :=
  if 3 < text.length || (text.headD '1' = '0' && 1 < text.length) then none
  else (Text.readUnsigned text).filter (· < 256)

def octets? (text : List Char) : Option (List Nat) := do
  let values ← (Text.splitAtChar '.' text).mapM octet?
  if values.length = 4 then some values else none

def hexDigit? (c : Char) : Option Nat :=
  match Text.digit? c with
  | some digit => some digit
  | none =>
      let letter := c.toLower
      if 'a' ≤ letter ∧ letter ≤ 'f' then some (letter.toNat - 'a'.toNat + 10) else none

def group? (text : List Char) : Option Nat :=
  if text.isEmpty || 4 < text.length then none
  else do
    let digits ← text.mapM hexDigit?
    some (digits.foldl (fun value digit => value * 16 + digit) 0)

def run? (text : List Char) : Option (List Nat) :=
  if text.isEmpty then some []
  else
    let pieces := Text.splitAtChar ':' text
    match (pieces.getLastD []).contains '.', octets? (pieces.getLastD []) with
    | true, some [a, b, c, d] => do
        let front ← pieces.dropLast.mapM group?
        some (front ++ [a * 256 + b, c * 256 + d])
    | true, _ => none
    | false, _ => pieces.mapM group?

def gap? : List Char → Option (List Char × List Char)
  | ':' :: ':' :: rest => some ([], rest)
  | c :: rest => (gap? rest).map fun parts => (c :: parts.1, parts.2)
  | [] => none

def groups? (text : List Char) : Option (List Nat) :=
  match gap? text with
  | none => (run? text).filter (·.length = 8)
  | some (front, back) => do
      if front.contains '.' then none
      let first ← run? front
      let last ← run? back
      if first.length + last.length ≤ 7 then
        some (first ++ List.replicate (8 - first.length - last.length) 0 ++ last)
      else none

def zone? : List Char → Option Nat
  | [] => some 0
  | '%' :: rest => (Text.readUnsigned rest).filter (· < UInt32.size)
  | _ => none

def colonPort? : List Char → Option Nat
  | ':' :: rest => port? rest
  | _ => none

def parse (text : String) : Option SocketAddress :=
  match text.toList with
  | '[' :: rest => do
      let inside := rest.takeWhile (· ≠ ']')
      let after := (rest.dropWhile (· ≠ ']')).drop 1
      let values ← groups? (inside.takeWhile (· ≠ '%'))
      let zone ← zone? (inside.dropWhile (· ≠ '%'))
      let port ← colonPort? after
      some ⟨.groups values zone, port⟩
  | plain => do
      let values ← octets? (plain.takeWhile (· ≠ ':'))
      let port ← colonPort? (plain.dropWhile (· ≠ ':'))
      some ⟨.octets values, port⟩

def syntaxMessage : String := "invalid socket address syntax"

end SocketAddress

end HeapCensus
