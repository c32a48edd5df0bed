import HeapCensus.HeapClass
import HeapCensus.Text.Blank
import HeapCensus.Text.Letter
import HeapCensus.Text.Number
import HeapCensus.Text.Split

set_option autoImplicit false

namespace HeapCensus

structure TypeName where
  base : String
  dimensions : Nat
  deriving DecidableEq, Repr

inductive TypeNameError where
  | empty
  | malformed (text : String)
  deriving DecidableEq, Repr

def TypeNameError.message : TypeNameError → String
  | .empty => "Type name is empty"
  | .malformed text => "Malformed type name '" ++ text ++ "'"

namespace TypeName

open Text

def startsIdentifier (c : Char) : Bool := isLetter c || c = '_' || c = '$'

def continuesIdentifier (c : Char) : Bool := startsIdentifier c || isNumber c

def isIdentifier : List Char → Bool
  | [] => false
  | c :: rest => startsIdentifier c && rest.all continuesIdentifier

def isBinaryName (text : List Char) : Bool := (splitAtChar '.' text).all isIdentifier

/-- Takes bracket pairs off the front of a reversed text, each with the blanks behind it. -/
def stripDimensions : List Char → List Char × Nat
  | ']' :: '[' :: rest =>
      let inner := stripDimensions (rest.dropWhile isBlank)
      (inner.1, inner.2 + 1)
  | other => (other, 0)
termination_by text => text.length
decreasing_by
  have shorter := (List.dropWhile_suffix isBlank (l := rest)).length_le
  simp only [List.length_cons]
  omega

def splitDimensions (text : List Char) : List Char × Nat :=
  let stripped := stripDimensions text.reverse
  (stripped.1.reverse, stripped.2)

def parse (text : String) : Except TypeNameError TypeName :=
  match trim text.toList with
  | [] => .error .empty
  | c :: rest =>
      let parts := splitDimensions (c :: rest)
      if isBinaryName parts.1 then .ok ⟨String.ofList parts.1, parts.2⟩
      else .error (.malformed (String.ofList (c :: rest)))

def render (name : TypeName) : String := renderTypeName name.base name.dimensions

def isArray (name : TypeName) : Bool := 0 < name.dimensions

def component? (name : TypeName) : Option TypeName :=
  match name.dimensions with
  | 0 => none
  | dimensions + 1 => some ⟨name.base, dimensions⟩

end TypeName

end HeapCensus
