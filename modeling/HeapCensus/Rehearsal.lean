import HeapCensus.Walker

set_option autoImplicit false

namespace HeapCensus

inductive ScanAct where
  | visit (object : Option HeapObject)
  | complete
  | fault (message : String)
  | delegate
  | stop (failure : Failure WalkerError)

structure ScanStep where
  act : ScanAct
  offset : UInt64
  times : Nat

inductive OfferAct where
  | push (object : Option HeapObject)
  | finish
  | fail (message : String)
  | delegate
  | stop (failure : Failure WalkerError)

structure OfferStep where
  act : OfferAct
  times : Nat

structure Script where
  countExact : Option (Outcome WalkerError UInt32) := none
  countAny : Option (Outcome WalkerError UInt32) := none
  instancesExact : Option (Outcome WalkerError (List HeapObject)) := none
  instancesAny : Option (Outcome WalkerError (List HeapObject)) := none
  scan : Option (List ScanStep) := none
  enumerate : Option (List OfferStep) := none
  classLoaderClass : Option (Outcome WalkerError HeapClass) := none
  loadClass : Option (Outcome WalkerError HeapClass) := none
  arrayClass : Option (Outcome WalkerError HeapClass) := none
  primitiveClass : Option (Option HeapClass) := none
  loadedAtBoot : Option Bool := none
  libraryLocation : Option (Option String) := none

structure Rehearsal (ω : Type) where
  inner : ω
  script : Script

namespace Rehearsal

variable {ω α : Type}

def setInner (inner : ω) (rehearsal : Rehearsal ω) : Rehearsal ω := { rehearsal with inner := inner }

def through (walk : Walk ω α) : Walk (Rehearsal ω) α :=
  ExceptT.mk fun rehearsal =>
    let called := walk.call rehearsal.inner
    (called.1, rehearsal.setInner called.2)

def answer (written : Script → Option (Outcome WalkerError α)) (walk : Walk ω α) :
    Walk (Rehearsal ω) α :=
  ExceptT.mk fun rehearsal =>
    match written rehearsal.script with
    | some outcome => (outcome, rehearsal)
    | none => (through walk).call rehearsal

def delegated {κ ρ : Type} (part : ExceptT (Failure WalkerError) (Dialogue ω κ ρ) α) :
    ExceptT (Failure WalkerError) (Dialogue (Rehearsal ω) κ ρ) α :=
  ExceptT.mk (part.run.zoom Rehearsal.inner setInner)

def actScan (scan : Tag → Reporting ω Unit) (tag : Tag) : ScanAct → Reporting (Rehearsal ω) Unit
  | .visit object => Reporting.report (.visited tag object)
  | .complete => Reporting.report (.completed tag)
  | .fault message => Reporting.report (.fault tag message)
  | .delegate => delegated (scan tag)
  | .stop failure => throw failure

def actScanTimes (scan : Tag → Reporting ω Unit) (tag : Tag) (act : ScanAct) :
    Nat → Reporting (Rehearsal ω) Unit
  | 0 => pure ()
  | times + 1 => do
      actScan scan tag act
      actScanTimes scan tag act times

def playScan (scan : Tag → Reporting ω Unit) (tag : Tag) :
    List ScanStep → Reporting (Rehearsal ω) Unit
  | [] => pure ()
  | step :: steps => do
      actScanTimes scan ⟨tag.value + step.offset⟩ step.act step.times
      playScan scan tag steps

def actOffer (enumeration : Offering ω Nat) : OfferAct → Offering (Rehearsal ω) Nat
  | .push object => do return if ← Offering.offer (.push object) then 1 else 0
  | .finish => do
      let _ ← Offering.offer .finish
      return 0
  | .fail message => do
      let _ ← Offering.offer (.fail message)
      return 0
  | .delegate => delegated enumeration
  | .stop failure => throw failure

def actOfferTimes (enumeration : Offering ω Nat) (act : OfferAct) (taken : Nat) :
    Nat → Offering (Rehearsal ω) Nat
  | 0 => pure taken
  | times + 1 => do
      let more ← actOffer enumeration act
      actOfferTimes enumeration act (taken + more) times

def playOffers (enumeration : Offering ω Nat) (taken : Nat) :
    List OfferStep → Offering (Rehearsal ω) Nat
  | [] => pure taken
  | step :: steps => do
      let taken ← actOfferTimes enumeration step.act taken step.times
      playOffers enumeration taken steps

def scriptedScan (walker : Walker ω) (type : HeapClass) (tag : Tag) (max : UInt32) :
    Reporting (Rehearsal ω) Unit := do
  let rehearsal ← Reporting.update id
  match rehearsal.script.scan with
  | some steps => playScan (fun tag => walker.scan type tag max) tag steps
  | none => delegated (walker.scan type tag max)

def scriptedEnumeration (walker : Walker ω) (type : HeapClass) (tag : Tag) (max : UInt32) :
    Offering (Rehearsal ω) Nat := do
  let rehearsal ← Offering.update id
  match rehearsal.script.enumerate with
  | some steps => playOffers (walker.enumerate type tag max) 0 steps
  | none => delegated (walker.enumerate type tag max)

def scriptedPrimitive (walker : Walker ω) (name : String) :
    StateM (Rehearsal ω) (Option HeapClass) := fun rehearsal =>
  match rehearsal.script.primitiveClass with
  | some type => (type, rehearsal)
  | none =>
      let called := (walker.primitiveClass name).run rehearsal.inner
      (called.1, rehearsal.setInner called.2)

def walker (inner : Walker ω) : Walker (Rehearsal ω) where
  countExact type tag max := answer Script.countExact (inner.countExact type tag max)
  countAny type tag max := answer Script.countAny (inner.countAny type tag max)
  instancesExact type tag max := answer Script.instancesExact (inner.instancesExact type tag max)
  instancesAny type tag max := answer Script.instancesAny (inner.instancesAny type tag max)
  scan := scriptedScan inner
  enumerate := scriptedEnumeration inner
  classLoaderClass := answer Script.classLoaderClass inner.classLoaderClass
  loadClass loader name := answer Script.loadClass (inner.loadClass loader name)
  arrayClass component := answer Script.arrayClass (inner.arrayClass component)
  primitiveClass := scriptedPrimitive inner
  loadedAtBoot rehearsal := rehearsal.script.loadedAtBoot.getD (inner.loadedAtBoot rehearsal.inner)
  libraryLocation rehearsal :=
    rehearsal.script.libraryLocation.getD (inner.libraryLocation rehearsal.inner)

end Rehearsal

end HeapCensus
