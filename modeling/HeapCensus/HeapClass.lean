set_option autoImplicit false

namespace HeapCensus

structure ClassId where
  value : Nat
  deriving DecidableEq, Repr

structure ObjectId where
  value : Nat
  deriving DecidableEq, Repr

/-- What a type that is no array can be. Only a concrete class has instances of its own. -/
inductive Kind where
  | concrete
  | abstract
  | interface
  | primitive
  deriving DecidableEq, Repr

inductive HeapClass where
  | plain (id : ClassId) (name : String) (kind : Kind) (loader : Option ObjectId)
  | array (id : ClassId) (name : String) (component : HeapClass) (loader : Option ObjectId)
  deriving DecidableEq, Repr

inductive Shape where
  | plain (kind : Kind)
  | array (component : HeapClass)
  deriving DecidableEq, Repr

def arraySuffix : String := "[]"

def renderTypeName (base : String) : Nat → String
  | 0 => base
  | dimensions + 1 => renderTypeName base dimensions ++ arraySuffix

def primitiveNames : List String :=
  ["boolean", "byte", "char", "short", "int", "long", "float", "double"]

def isPrimitiveName (name : String) : Bool := primitiveNames.contains name

namespace HeapClass

def id : HeapClass → ClassId
  | .plain id _ _ _ => id
  | .array id _ _ _ => id

def name : HeapClass → String
  | .plain _ name _ _ => name
  | .array _ name _ _ => name

def loader : HeapClass → Option ObjectId
  | .plain _ _ _ loader => loader
  | .array _ _ _ loader => loader

def component? : HeapClass → Option HeapClass
  | .plain .. => none
  | .array _ _ component _ => some component

def isArray : HeapClass → Bool
  | .plain .. => false
  | .array .. => true

def isPrimitive : HeapClass → Bool
  | .plain _ _ kind _ => kind = .primitive
  | .array .. => false

def isConcrete : HeapClass → Bool
  | .plain _ _ kind _ => kind = .concrete
  | .array .. => true

def dimensions : HeapClass → Nat
  | .plain .. => 0
  | .array _ _ component _ => component.dimensions + 1

def elementType : HeapClass → HeapClass
  | .plain id name kind loader => .plain id name kind loader
  | .array _ _ component _ => component.elementType

def isPrimitiveLike (type : HeapClass) : Bool := type.elementType.isPrimitive

def canonicalName (type : HeapClass) : String :=
  renderTypeName type.elementType.name type.dimensions

def concrete (id : ClassId) (name : String) (loader : Option ObjectId) : HeapClass :=
  .plain id name .concrete loader

def primitive (id : ClassId) (name : String) : HeapClass := .plain id name .primitive none

def arrayOver (id : ClassId) (component : HeapClass) : HeapClass :=
  .array id (component.name ++ arraySuffix) component component.loader

def shaped (id : ClassId) (name : String) (loader : Option ObjectId) : Shape → HeapClass
  | .plain kind => .plain id name kind loader
  | .array component => .array id name component loader

@[simp] theorem id_shaped (id : ClassId) (name : String) (loader : Option ObjectId) (shape : Shape) :
    (shaped id name loader shape).id = id := by
  cases shape <;> rfl

@[simp] theorem name_shaped (id : ClassId) (name : String) (loader : Option ObjectId) (shape : Shape) :
    (shaped id name loader shape).name = name := by
  cases shape <;> rfl

@[simp] theorem loader_shaped (id : ClassId) (name : String) (loader : Option ObjectId) (shape : Shape) :
    (shaped id name loader shape).loader = loader := by
  cases shape <;> rfl

end HeapClass

structure HeapObject where
  id : ObjectId
  type : HeapClass
  deriving DecidableEq, Repr

/-- A class is put into a set of classes unless one of its id is there. -/
def insertClass (type : HeapClass) (types : List HeapClass) : List HeapClass :=
  if types.any fun other => other.id = type.id then types else types ++ [type]

end HeapCensus
