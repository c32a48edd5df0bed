import HeapCensus.Agent

set_option autoImplicit false

namespace HeapCensus

structure ClassEntry where
  handle : Nat
  status : Int
  description : Description

inductive ScriptedCallback where
  | visited (offset : Int64) (object type : Nat)
  | completed (offset : Int64)

structure AgentTable where
  wasLoaded : Int
  loaderClass : Nat
  classes : List ClassEntry
  -- Objects with their classes, in walk order.
  objects : List (Nat × Nat)
  -- The classes whose objects count as instances of a class, where that is not the class alone.
  matching : List (Nat × List Nat)
  looseExact : Bool
  -- Walks do not stop at their bound.
  ignoreBound : Bool
  -- The status of an operation, where it is not 0.
  statuses : List (String × Int)
  script : Option (List ScriptedCallback)
  -- Loader, name and class.
  loadable : List (Nat × String × Nat)
  arrays : List (Nat × Nat)
  primitives : List (String × Nat)

namespace AgentTable

def status (table : AgentTable) (operation : String) : Int :=
  match table.statuses.find? fun entry => entry.1 = operation with
  | some entry => entry.2
  | none => 0

def unknownStatus (table : AgentTable) : Int :=
  match table.statuses.find? fun entry => entry.1 = "unknown_class" with
  | some entry => entry.2
  | none => -1

def describe (table : AgentTable) (handle : Nat) : Int × Description :=
  match table.classes.find? fun entry => entry.handle = handle with
  | some entry => (entry.status, entry.description)
  | none => (table.unknownStatus, Description.blank)

def matches? (table : AgentTable) (types : List Nat) (max : UInt32) : List (Nat × Nat) :=
  let found := table.objects.filter fun object => types.contains object.2
  if table.ignoreBound then found else found.take max.toNat

def below (table : AgentTable) (type : Nat) : List Nat :=
  match table.matching.find? fun entry => entry.1 = type with
  | some entry => entry.2
  | none => [type]

def exact (table : AgentTable) (type : Nat) (max : UInt32) : List (Nat × Nat) :=
  table.matches? (if table.looseExact then table.below type else [type]) max

def any (table : AgentTable) (type : Nat) (max : UInt32) : List (Nat × Nat) :=
  table.matches? (table.below type) max

def callbacks (table : AgentTable) (type : Nat) (tag : Int64) (max : UInt32) :
    List AgentCallback :=
  match table.script with
  | some script =>
      script.map fun
        | .visited offset object type => .visited (tag + offset) object type
        | .completed offset => .completed (tag + offset)
  | none =>
      (table.any type max).map (fun object => .visited tag object.1 object.2) ++ [.completed tag]

def agent (table : AgentTable) : Agent where
  wasLoaded := table.wasLoaded
  describe := table.describe
  countExact type max := (table.status "count_exact", (table.exact type max).length.toUInt32)
  countAny type max := (table.status "count_any", (table.any type max).length.toUInt32)
  walkExact type max := ⟨table.exact type max, table.status "instances_exact"⟩
  walkAny type max := ⟨table.any type max, table.status "instances_any"⟩
  scan type tag max := ⟨table.callbacks type tag max, table.status "type_cardinality"⟩
  queue type max := ⟨table.exact type max, table.status "queue_instances"⟩
  loaderClass := table.loaderClass
  loadClass loader name :=
    match table.loadable.find? fun entry => entry.1 = loader && entry.2.1 = name with
    | some entry => entry.2.2
    | none => 0
  arrayClass component :=
    match table.arrays.find? fun entry => entry.1 = component with
    | some entry => entry.2
    | none => 0
  primitiveClass name :=
    match table.primitives.find? fun entry => entry.1 = name with
    | some entry => entry.2
    | none => 0

end AgentTable

end HeapCensus
