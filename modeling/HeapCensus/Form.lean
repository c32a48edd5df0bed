import HeapCensus.Text.Split
import HeapCensus.Text.Utf8

set_option autoImplicit false

namespace HeapCensus

abbrev Form := List (String × String)

namespace Form

def hexValue? (byte : UInt8) : Option UInt8 :=
  if 48 ≤ byte ∧ byte ≤ 57 then some (byte - 48)
  else if 65 ≤ byte ∧ byte ≤ 70 then some (byte - 55)
  else if 97 ≤ byte ∧ byte ≤ 102 then some (byte - 87)
  else none

/-- A percent sign that is not followed by two digits stands for itself. -/
def decodePercent : List UInt8 → List UInt8
  | first :: high :: low :: rest =>
      match first == 37, hexValue? high, hexValue? low with
      | true, some high, some low => (high * 16 + low) :: decodePercent rest
      | _, _, _ => first :: decodePercent (high :: low :: rest)
  | short => short

def decodeText (text : List Char) : String :=
  let spaced := text.map fun c => if c = '+' then ' ' else c
  String.ofList (Text.decodeUtf8 (decodePercent (String.ofList spaced).toUTF8.toList))

def parse (query : List Char) : Form :=
  let pieces := (Text.splitAtChar '&' query).filter (!·.isEmpty)
  pieces.map fun piece =>
    let parts := Text.cutAtChar '=' piece
    (decodeText parts.1, decodeText parts.2)

/-- The value of a field that may stand there once at most; none when it stands there twice. -/
def single (form : Form) (name : String) : Option (Option String) :=
  match form.filter fun field => field.1 = name with
  | [] => some none
  | [field] => some (some field.2)
  | _ => none

def required (form : Form) (name : String) : Option String := (form.single name).join

def flag (form : Form) (name : String) : Option Bool := do
  match ← form.single name with
  | none => some false
  | some "true" => some true
  | some "false" => some false
  | some _ => none

end Form

end HeapCensus
