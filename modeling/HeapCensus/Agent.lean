set_option autoImplicit false

namespace HeapCensus

structure Description where
  kind : Nat
  component : Nat
  loader : Nat
  -- How long the agent says the name is.
  nameLength : Nat
  name : List UInt8
  deriving DecidableEq, Repr

namespace Description

def arrayKind : Nat := 4

def blank : Description := { kind := 0, component := 0, loader := 0, nameLength := 0, name := [] }

end Description

/-- A walk over objects: each with the handle of its class, and the status at the end. The agent stops early
when its caller asks it to. -/
structure AgentWalk where
  visits : List (Nat × Nat)
  status : Int
  deriving DecidableEq, Repr

inductive AgentCallback where
  | visited (tag : Int64) (object type : Nat)
  | completed (tag : Int64)
  deriving DecidableEq, Repr

structure AgentScan where
  callbacks : List AgentCallback
  status : Int
  deriving DecidableEq, Repr

structure Agent where
  wasLoaded : Int
  describe : Nat → Int × Description
  countExact : Nat → UInt32 → Int × UInt32
  countAny : Nat → UInt32 → Int × UInt32
  walkExact : Nat → UInt32 → AgentWalk
  walkAny : Nat → UInt32 → AgentWalk
  scan : Nat → Int64 → UInt32 → AgentScan
  queue : Nat → UInt32 → AgentWalk
  loaderClass : Nat
  loadClass : Nat → String → Nat
  arrayClass : Nat → Nat
  primitiveClass : String → Nat

end HeapCensus
