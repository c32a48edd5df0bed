import HeapCensus.Agent
import HeapCensus.Text.Utf8
import HeapCensus.Walker

set_option autoImplicit false

namespace HeapCensus

structure Binding where
  agent : Agent
  known : List (Nat × HeapClass)
  location : String
  loadedAtBoot : Bool
  visits : Nat
  descriptions : Nat

inductive LibraryFile where
  | missing
  | unreadable
  | exporting (symbols : List String) (agent : Agent)

namespace Binding

def requiredSymbols : List String :=
  ["heapscope_was_loaded", "heapscope_class_info", "heapscope_count_exact", "heapscope_count_any",
   "heapscope_instances_exact", "heapscope_instances_any", "heapscope_type_cardinality",
   "heapscope_queue_instances", "heapscope_class_loader_class", "heapscope_load_class",
   "heapscope_array_class", "heapscope_primitive_class"]

def load (path : String) : LibraryFile → Except WalkerError Binding
  | .missing => .error (.library (path ++ ": no such file"))
  | .unreadable => .error (.library (path ++ ": not a library"))
  | .exporting symbols agent =>
      match requiredSymbols.find? fun symbol => !symbols.contains symbol with
      | some symbol => .error (.missingSymbol symbol)
      | none =>
          .ok
            { agent := agent
              known := []
              location := path
              loadedAtBoot := agent.wasLoaded ≠ 0
              visits := 0
              descriptions := 0 }

def replaceAgent (binding : Binding) (agent : Agent) : Binding :=
  { binding with agent := agent, visits := 0, descriptions := 0 }

def nameRoom : Nat := 512

def nameOf (description : Description) : String :=
  let buffer := description.name.take nameRoom ++
    List.replicate (nameRoom - description.name.length) 0
  String.ofList (Text.decodeUtf8 (buffer.take description.nameLength))

def plainKind? : Nat → Option Kind
  | 0 => some .concrete
  | 1 => some .abstract
  | 2 => some .interface
  | 3 => some .primitive
  | _ => none

def loaderOf (description : Description) : Option ObjectId :=
  if description.loader = 0 then none else some ⟨description.loader⟩

def known? (binding : Binding) (handle : Nat) : Option HeapClass :=
  (binding.known.find? fun entry => entry.1 = handle).map (·.2)

def remember (binding : Binding) (handle : Nat) (type : HeapClass) : HeapClass × Binding :=
  match binding.known? handle with
  | some type => (type, binding)
  | none => (type, { binding with known := binding.known ++ [(handle, type)] })

def asked (binding : Binding) : Binding :=
  { binding with descriptions := binding.descriptions + 1 }

def enclosed (handle : Nat) (description : Description) :
    Except WalkerError HeapClass × Binding → Except WalkerError HeapClass × Binding
  | (.error error, binding) => (.error error, binding)
  | (.ok component, binding) =>
      let type := HeapClass.array ⟨handle⟩ (nameOf description) component (loaderOf description)
      let kept := binding.remember handle type
      (.ok kept.1, kept.2)

/-- The class of a handle: known, or described by the agent, an array after its component. A lookup
that is led on from component to component for ever does not return. -/
def lookup? (binding : Binding) (handle : Nat) : Option (Except WalkerError HeapClass × Binding) :=
  if handle = 0 then some (.error (.unknownHandle 0), binding)
  else
    match binding.known? handle with
    | some type => some (.ok type, binding)
    | none =>
        let described := binding.agent.describe handle
        let description := described.2
        if described.1 ≠ 0 then some (.error (.native "class_info" described.1), binding.asked)
        else if description.kind = Description.arrayKind then do
          -- Applied by name alone, which leaves no position of the call in the definition.
          let component ← by
            apply lookup?
            · exact binding.asked
            · exact description.component
          some (enclosed handle description component)
        else
          match plainKind? description.kind with
          | none =>
              some (.error (.fault ("Class " ++ Nat.repr handle ++ " has unknown kind " ++
                Nat.repr description.kind)), binding.asked)
          | some kind =>
              let type := HeapClass.plain ⟨handle⟩ (nameOf description) kind (loaderOf description)
              let kept := binding.asked.remember handle type
              some (.ok kept.1, kept.2)
partial_fixpoint

/-- What a lookup gives. The value for one that does not return is never come to. -/
def lookup (binding : Binding) (handle : Nat) : Except WalkerError HeapClass × Binding :=
  (binding.lookup? handle).getD (.error (.unknownHandle handle), binding)

def found (binding : Binding) (handle : Nat) (name : String) :
    Except WalkerError HeapClass × Binding :=
  if handle = 0 then (.error (.classNotFound name), binding) else binding.lookup handle

def visited (binding : Binding) : Binding := { binding with visits := binding.visits + 1 }

def check (operation : String) (status : Int) : Except WalkerError Unit :=
  if status = 0 then .ok () else .error (.native operation status)

def gather (binding : Binding) : List (Nat × Nat) →
    Except WalkerError (List HeapObject) × Binding
  | [] => (.ok [], binding)
  | (object, handle) :: visits =>
      if object = 0 then binding.visited.gather visits
      else
        match binding.visited.lookup handle with
        | (.error error, binding) => (.error error, binding)
        | (.ok type, binding) =>
            match binding.gather visits with
            | (.error error, binding) => (.error error, binding)
            | (.ok objects, binding) => (.ok (⟨⟨object⟩, type⟩ :: objects), binding)

/-- A list of instances: all of the walk's objects, or none. -/
def collect (operation : String) (walk : Agent → AgentWalk) :
    Walk Binding (List HeapObject) := do
  let binding : Binding ← get
  let walked := walk binding.agent
  let (gathered, after) := binding.gather walked.visits
  set after
  ExceptT.mk (pure (Outcome.ofExcept (check operation walked.status)))
  ExceptT.mk (pure (Outcome.ofExcept gathered))

def count (operation : String) (counting : Agent → Int × UInt32) : Walk Binding UInt32 := do
  let binding : Binding ← get
  let counted := counting binding.agent
  ExceptT.mk (pure (Outcome.ofExcept (check operation counted.1)))
  return counted.2

def resolve (search : Agent → Nat) (name : String) : Walk Binding HeapClass := do
  let binding : Binding ← get
  let (type, after) := binding.found (search binding.agent) name
  set after
  ExceptT.mk (pure (Outcome.ofExcept type))

def lookupReporting (handle : Nat) : Reporting Binding (Except WalkerError HeapClass) := do
  let before ← Reporting.update fun binding => (binding.lookup handle).2
  return (before.lookup handle).1

def reportGuarded (event : ScanEvent) (tag : Tag) (message : String) :
    Reporting Binding Unit := do
  let reply : SinkReply ← ExceptT.lift (Dialogue.ask event)
  match reply with
  | .taken => pure ()
  | .panicked _ =>
      let _ : SinkReply ← ExceptT.lift (Dialogue.ask (.fault tag message))

def passOn : AgentCallback → Reporting Binding Unit
  | .visited word object handle => do
      let tag := Tag.ofSigned word
      let panicked := "panic in instance callback"
      if object = 0 then reportGuarded (.visited tag none) tag panicked
      else
        match ← lookupReporting handle with
        | .ok type => reportGuarded (.visited tag (some ⟨⟨object⟩, type⟩)) tag panicked
        | .error error =>
            let _ : SinkReply ← ExceptT.lift (Dialogue.ask (.fault tag error.message))
  | .completed word =>
      reportGuarded (.completed (Tag.ofSigned word)) (Tag.ofSigned word)
        "panic in completion callback"

def passAllOn : List AgentCallback → Reporting Binding Unit
  | [] => pure ()
  | callback :: callbacks => do
      passOn callback
      passAllOn callbacks

def scan (type : HeapClass) (tag : Tag) (max : UInt32) : Reporting Binding Unit := do
  let binding ← Reporting.update id
  let scanned := binding.agent.scan type.id.value tag.toSigned max
  passAllOn scanned.callbacks
  ExceptT.mk (pure (Outcome.ofExcept (check "type_cardinality" scanned.status)))

def lookupOffering (handle : Nat) : Offering Binding (Except WalkerError HeapClass) := do
  let before ← Offering.update fun binding => (binding.lookup handle).2
  return (before.lookup handle).1

/-- Pushes what is visited, until the stream takes no more or a class cannot be looked up. The answer is the
number of pushed items and the error. -/
def pushVisits : Nat → List (Nat × Nat) → Offering Binding (Nat × Option WalkerError)
  | pushed, [] => pure (pushed, none)
  | pushed, (object, handle) :: visits => do
      let _ ← Offering.update visited
      if object = 0 then
        if ← Offering.offer (.push none) then pushVisits (pushed + 1) visits
        else pure (pushed, none)
      else
        match ← lookupOffering handle with
        | .error error => pure (pushed, some error)
        | .ok type =>
            if ← Offering.offer (.push (some ⟨⟨object⟩, type⟩)) then
              pushVisits (pushed + 1) visits
            else pure (pushed, none)

def enumerate (type : HeapClass) (_tag : Tag) (max : UInt32) : Offering Binding Nat := do
  let binding ← Offering.update id
  let walked := binding.agent.queue type.id.value max
  let (pushed, error) ← pushVisits 0 walked.visits
  ExceptT.mk (pure (Outcome.ofExcept (check "queue_instances" walked.status)))
  match error with
  | some error => Offering.fail error
  | none =>
      let _ ← Offering.offer .finish
      pure pushed

def walker : Walker Binding where
  countExact type _ max := count "count_exact" (·.countExact type.id.value max)
  countAny type _ max := count "count_any" (·.countAny type.id.value max)
  instancesExact type _ max := collect "instances_exact" (·.walkExact type.id.value max)
  instancesAny type _ max := collect "instances_any" (·.walkAny type.id.value max)
  scan := scan
  enumerate := enumerate
  classLoaderClass := resolve (·.loaderClass) "java.lang.ClassLoader"
  loadClass loader name :=
    resolve (·.loadClass (match loader with | some object => object.id.value | none => 0) name) name
  arrayClass component :=
    resolve (·.arrayClass component.id.value) (component.name ++ arraySuffix)
  primitiveClass name := do
    let binding : Binding ← get
    let (type, after) := binding.found (binding.agent.primitiveClass name) name
    set after
    return type.toOption
  loadedAtBoot binding := binding.loadedAtBoot
  libraryLocation binding := some binding.location

end Binding

end HeapCensus
