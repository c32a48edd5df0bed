set_option autoImplicit false

namespace HeapCensus.Text

def digit? (c : Char) : Option Nat :=
  if '0' ≤ c ∧ c ≤ '9' then some (c.toNat - '0'.toNat) else none

def readDigits (value : Nat) : List Char → Option Nat
  | [] => some value
  | c :: rest =>
      match digit? c with
      | some digit => readDigits (value * 10 + digit) rest
      | none => none

def readUnsigned : List Char → Option Nat
  | [] => none
  | text => readDigits 0 text

def readNumber (limit : Nat) (text : String) : Option Nat :=
  let read :=
    match text.toList with
    | '+' :: rest => readUnsigned rest
    | other => readUnsigned other
  read.filter (· < limit)

end HeapCensus.Text
