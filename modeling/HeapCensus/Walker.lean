import HeapCensus.Feed
import HeapCensus.Outcome

set_option autoImplicit false

namespace HeapCensus

inductive WalkerError where
  | classNotFound (name : String)
  | library (text : String)
  | missingSymbol (symbol : String)
  | native (operation : String) (status : Int)
  | incomplete (tag : Tag)
  | fault (text : String)
  | unknownHandle (handle : Nat)
  deriving DecidableEq, Repr

def WalkerError.message : WalkerError → String
  | .classNotFound name => "Class not found: " ++ name
  | .library text => "Failed to load walker library: " ++ text
  | .missingSymbol symbol => "Walker library is missing symbol " ++ symbol
  | .native operation status =>
      "Native call " ++ operation ++ " failed with status " ++ Int.repr status
  | .incomplete tag => "Scan " ++ tag.render ++ " returned without signalling completion"
  | .fault text => "Walker fault: " ++ text
  | .unknownHandle handle => "Unknown native handle " ++ Nat.repr handle

def unbounded : UInt32 := UInt32.ofNat (UInt32.size - 1)

inductive ScanEvent where
  | visited (tag : Tag) (object : Option HeapObject)
  | completed (tag : Tag)
  | fault (tag : Tag) (message : String)
  deriving DecidableEq, Repr

inductive SinkReply where
  | taken
  | panicked (payload : Panic)
  deriving DecidableEq, Repr

abbrev Walk (ω α : Type) := ExceptT (Failure WalkerError) (StateM ω) α

abbrev Reporting (ω α : Type) := ExceptT (Failure WalkerError) (Dialogue ω ScanEvent SinkReply) α

abbrev Scan (ω : Type) := Reporting ω Unit

abbrev Offering (ω α : Type) := ExceptT (Failure WalkerError) (Dialogue ω Offer Bool) α

abbrev Enumeration (ω : Type) := Offering ω Nat

structure Walker (ω : Type) where
  countExact : HeapClass → Tag → UInt32 → Walk ω UInt32
  countAny : HeapClass → Tag → UInt32 → Walk ω UInt32
  instancesExact : HeapClass → Tag → UInt32 → Walk ω (List HeapObject)
  instancesAny : HeapClass → Tag → UInt32 → Walk ω (List HeapObject)
  scan : HeapClass → Tag → UInt32 → Scan ω
  enumerate : HeapClass → Tag → UInt32 → Enumeration ω
  classLoaderClass : Walk ω HeapClass
  loadClass : Option HeapObject → String → Walk ω HeapClass
  arrayClass : HeapClass → Walk ω HeapClass
  primitiveClass : String → StateM ω (Option HeapClass)
  loadedAtBoot : ω → Bool
  libraryLocation : ω → Option String

namespace Walk

variable {ω α : Type}

def fail (error : WalkerError) : Walk ω α := throw (.error error)

def call (walk : Walk ω α) (world : ω) : Outcome WalkerError α × ω := walk.run.run world

end Walk

namespace Reporting

variable {ω : Type}

def report (event : ScanEvent) : Reporting ω Unit := do
  let reply : SinkReply ← ExceptT.lift (Dialogue.ask event)
  match reply with
  | .taken => pure ()
  | .panicked payload => throw (.panic payload)

def update (change : ω → ω) : Reporting ω ω := ExceptT.lift (.act change .stop)

def fail {α : Type} (error : WalkerError) : Reporting ω α := throw (.error error)

end Reporting

namespace Offering

variable {ω : Type}

def offer (offer : Offer) : Offering ω Bool := ExceptT.lift (Dialogue.ask offer)

def update (change : ω → ω) : Offering ω ω := ExceptT.lift (.act change .stop)

def fail {α : Type} (error : WalkerError) : Offering ω α := throw (.error error)

end Offering

end HeapCensus
