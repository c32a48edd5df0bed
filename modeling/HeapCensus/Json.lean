set_option autoImplicit false

namespace HeapCensus

inductive Json where
  | null
  | boolean (value : Bool)
  | integer (value : Int)
  | double (value : Float)
  | text (value : String)
  | list (items : List Json)
  | object (members : List (String × Json))
  deriving Inhabited

namespace Json

def optional {α : Type} (encode : α → Json) : Option α → Json
  | some value => encode value
  | none => .null

def natural (value : Nat) : Json := .integer (Int.ofNat value)

def member? (name : String) : Json → Option Json
  | .object members => (members.find? fun entry => entry.1 = name).map (·.2)
  | _ => none

def get (json : Json) (name : String) : Json := (member? name json).getD .null

def isNull : Json → Bool
  | .null => true
  | _ => false

def items : Json → List Json
  | .list items => items
  | _ => []

def item (json : Json) (place : Nat) : Json := json.items.getD place .null

def natural? : Json → Option Nat
  | .integer (.ofNat value) => some value
  | _ => none

def integer? : Json → Option Int
  | .integer value => some value
  | _ => none

def word? : Json → Option Nat
  | .integer (.ofNat value) => if value < UInt64.size then some value else none
  | _ => none

def text? : Json → Option String
  | .text value => some value
  | _ => none

def asNatural (json : Json) : Nat := json.natural?.getD 0

def asText (json : Json) : String := json.text?.getD ""

def naturalAt (json : Json) (name : String) (absent : Nat) : Nat :=
  (json.get name).natural?.getD absent

def integerAt (json : Json) (name : String) (absent : Int) : Int :=
  (json.get name).integer?.getD absent

def textAt (json : Json) (name : String) (absent : String) : String :=
  (json.get name).text?.getD absent

def flagAt (json : Json) (name : String) (absent : Bool) : Bool :=
  match json.get name with
  | .boolean value => value
  | _ => absent

def itemsAt (json : Json) (name : String) : List Json := (json.get name).items

def texts? : Json → Option (List String)
  | .list items => items.mapM text?
  | _ => none

def fields? (names : List String) : Json → Option (List Json)
  | .object members => names.mapM fun name => member? name (.object members)
  | .list items => if items.length = names.length then some items else none
  | _ => none

def escape (c : Char) : List Char :=
  if c = '\x22' then ['\x5c', '\x22']
  else if c = '\x5c' then ['\x5c', '\x5c']
  else if c.toNat < 0x20 then
    ['\x5c', 'u', '0', '0', Nat.digitChar (c.toNat / 16), Nat.digitChar (c.toNat % 16)]
  else [c]

def quote (value : String) : String :=
  "\"" ++ String.ofList (value.toList.flatMap escape) ++ "\""

/-- Halves a number so many times as long as it is even; the answer is what is left and how many times it
was not halved. -/
def halve (number : Nat) : Nat → Nat × Nat
  | 0 => (number, 0)
  | times + 1 => if number % 2 = 0 then halve (number / 2) times else (number, times + 1)

def renderBinary (significand places : Nat) : String :=
  let digits := (Nat.repr (significand * Nat.pow 5 places)).toList
  let padded := List.replicate (places + 1 - digits.length) '0' ++ digits
  let whole := padded.length - places
  let fraction := if places = 0 then ['0'] else padded.drop whole
  String.ofList (padded.take whole ++ '.' :: fraction)

def renderDouble (value : Float) : String :=
  let bits := value.toBits.toNat
  let sign := if bits >>> 63 = 0 then "" else "-"
  let exponent := (bits >>> 52) % 2048
  let fraction := bits % (1 <<< 52)
  if exponent = 2047 then "null"
  else
    let significand := if exponent = 0 then fraction else fraction + (1 <<< 52)
    let scale := Nat.max exponent 1
    let reduced := halve (significand <<< (scale - 1075)) (1075 - scale)
    sign ++ renderBinary reduced.1 reduced.2

mutual

def render : Json → String
  | .null => "null"
  | .boolean true => "true"
  | .boolean false => "false"
  | .integer value => Int.repr value
  | .double value => renderDouble value
  | .text value => quote value
  | .list items => "[" ++ String.intercalate "," (renderItems items) ++ "]"
  | .object members => "\x7b" ++ String.intercalate "," (renderMembers members) ++ "\x7d"

def renderItems : List Json → List String
  | [] => []
  | item :: items => render item :: renderItems items

def renderMembers : List (String × Json) → List String
  | [] => []
  | (name, value) :: members => (quote name ++ ":" ++ render value) :: renderMembers members

end

end Json

end HeapCensus
