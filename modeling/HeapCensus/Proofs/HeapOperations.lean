import HeapCensus.SyntheticHeap
import HeapCensus.Proofs.Tally

set_option autoImplicit false

namespace HeapCensus.SyntheticHeap

def classes (heap : SyntheticHeap) : List HeapClass :=
  heap.definitions ++ heap.arrays.map (·.2) ++ primitives

/-- What a type is defined with. -/
structure Definition where
  name : String
  shape : Shape
  above : List HeapClass
  loader : Option HeapObject

namespace Definition

def key (wanted : Definition) : Option ObjectId × String :=
  (wanted.loader.map HeapObject.id, wanted.name)

def made (wanted : Definition) (id : ClassId) : HeapClass :=
  HeapClass.shaped id wanted.name (wanted.loader.map HeapObject.id) wanted.shape

def row (wanted : Definition) : List ClassId := wanted.above.map HeapClass.id ++ [objectClass.id]

end Definition

def defineAs (heap : SyntheticHeap) (wanted : Definition) : HeapClass × SyntheticHeap :=
  heap.define wanted.name wanted.shape wanted.above wanted.loader

/-- Walker calls and the settings of the reports. -/
def configure (heap : SyntheticHeap) (threads nulls calls : Nat) (skips fails : Bool)
    (turns : Tag → List Nat) : SyntheticHeap :=
  { heap with
    emitThreads := threads
    emitNulls := nulls
    calls := calls
    skipCompletion := skips
    failScans := fails
    turns := turns }

/-- Everything that can be done to a heap. Supertypes, components, loaders and released objects may be
foreign to it. -/
inductive Operation where
  | define (wanted : Definition)
  | defineClass (name : String) (loader : Option HeapObject)
  | arrayOf (component : HeapClass)
  | newLoader
  | allocate (type : HeapClass)
  | allocateMany (type : HeapClass) (amount : Nat)
  | release (object : HeapObject)
  | configure (threads nulls calls : Nat) (skips fails : Bool) (turns : Tag → List Nat)

/-- What was done, and what it gave. -/
inductive Deed where
  | defined (wanted : Definition) (type : HeapClass)
  | arrayed (component array : HeapClass)
  | allocated (object : HeapObject)
  | released (object : HeapObject) (live : Bool)
  | configured

namespace Deed

def type? : Deed → Option HeapClass
  | .defined _ type => some type
  | .arrayed _ array => some array
  | .allocated _ | .released _ _ | .configured => none

def object? : Deed → Option HeapObject
  | .allocated object => some object
  | .defined _ _ | .arrayed _ _ | .released _ _ | .configured => none

def freed? : Deed → Option ObjectId
  | .released object _ => some object.id
  | .defined _ _ | .arrayed _ _ | .allocated _ | .configured => none

end Deed

def allocated (past : List Deed) : List HeapObject := past.filterMap Deed.object?

def Operation.perform : Operation → SyntheticHeap → List Deed × SyntheticHeap
  | .define wanted, heap => (heap.defineAs wanted).map ([.defined wanted ·]) id
  | .defineClass name loader, heap =>
      (heap.defineClass name loader).map ([.defined ⟨name, .plain .concrete, [], loader⟩ ·]) id
  | .arrayOf component, heap => (heap.arrayOf component).map ([.arrayed component ·]) id
  | .newLoader, heap => heap.newLoader.map ([.allocated ·]) id
  | .allocate type, heap => (heap.allocate type).map ([.allocated ·]) id
  | .allocateMany type amount, heap => (heap.allocateMany type amount).map (·.map .allocated) id
  | .release object, heap => (heap.release object).map ([.released object ·]) id
  | .configure threads nulls calls skips fails turns, heap =>
      ([.configured], heap.configure threads nulls calls skips fails turns)

def operated : List Operation → SyntheticHeap → List Deed × SyntheticHeap
  | [], heap => ([], heap)
  | operation :: operations, heap =>
      let (deeds, between) := operation.perform heap
      let (more, after) := operated operations between
      (deeds ++ more, after)

/-- A heap with one more class id and the row of that class. -/
def risen (heap : SyntheticHeap) (row : List ClassId) : SyntheticHeap :=
  { heap with
    nextClass := heap.nextClass + 1
    supertypes := heap.supertypes ++ [(⟨heap.nextClass⟩, row)] }

/-- One deed, with all that it can change. -/
inductive Does (heap : SyntheticHeap) : Deed → SyntheticHeap → Prop
  | known {wanted : Definition} {type : HeapClass} :
      heap.definition? wanted.key.1 wanted.key.2 = some type → Does heap (.defined wanted type) heap
  | made {wanted : Definition} :
      heap.definition? wanted.key.1 wanted.key.2 = none →
      Does heap (.defined wanted (wanted.made ⟨heap.nextClass⟩))
        { heap.risen wanted.row with definitions := heap.definitions ++ [wanted.made ⟨heap.nextClass⟩] }
  | interned {component array : HeapClass} {id : ClassId} :
      (heap.arrays.find? fun entry => entry.1 = component.id) = some (id, array) →
      Does heap (.arrayed component array) heap
  | arrayed {component : HeapClass} :
      (heap.arrays.find? fun entry => entry.1 = component.id) = none →
      Does heap (.arrayed component (HeapClass.arrayOver ⟨heap.nextClass⟩ component))
        { heap.risen [objectClass.id] with
          arrays := heap.arrays ++ [(component.id, HeapClass.arrayOver ⟨heap.nextClass⟩ component)] }
  | allocated (type : HeapClass) :
      Does heap (.allocated ⟨⟨heap.nextObject⟩, type⟩)
        { heap with
          nextObject := heap.nextObject + 1
          objects := heap.objects ++ [⟨⟨heap.nextObject⟩, type⟩] }
  | released (object : HeapObject) :
      Does heap (.released object (heap.objects.any fun other => other.id = object.id))
        { heap with objects := heap.objects.filter fun other => other.id ≠ object.id }
  | configured (threads nulls calls : Nat) (skips fails : Bool) (turns : Tag → List Nat) :
      Does heap .configured (heap.configure threads nulls calls skips fails turns)

theorem define_does (heap : SyntheticHeap) (wanted : Definition) :
    Does heap (.defined wanted (heap.defineAs wanted).1) (heap.defineAs wanted).2 := by
  cases found : heap.definition? wanted.key.1 wanted.key.2 with
  | some type =>
      have same : heap.defineAs wanted = (type, heap) := by
        have held : heap.definition? (wanted.loader.map HeapObject.id) wanted.name = some type := found
        simp only [defineAs, define, held]
      rw [same]
      exact .known found
  | none =>
      have held : heap.definition? (wanted.loader.map HeapObject.id) wanted.name = none := found
      have fresh := Does.made found
      simp only [defineAs, define, held, HeapClass.id_shaped]
      exact fresh

theorem array_of_does (heap : SyntheticHeap) (component : HeapClass) :
    Does heap (.arrayed component (heap.arrayOf component).1) (heap.arrayOf component).2 := by
  cases found : heap.arrays.find? fun entry => entry.1 = component.id with
  | some entry =>
      have known := Does.interned found
      simp only [arrayOf, found]
      exact known
  | none =>
      have fresh := Does.arrayed found
      simp only [arrayOf, found]
      exact fresh

section Keeping

variable (kept : List Deed → SyntheticHeap → Prop)
  (step : ∀ {past heap deed after}, kept past heap → Does heap deed after → kept (past ++ [deed]) after)

include step

theorem allocate_many_keeps {past : List Deed} {heap : SyntheticHeap} (start : kept past heap)
    (type : HeapClass) (amount : Nat) :
    kept (past ++ (heap.allocateMany type amount).1.map .allocated) (heap.allocateMany type amount).2 := by
  -- The last object of the many is the one more that a single allocation gives.
  induction amount with
  | zero => simpa [allocateMany] using start
  | succ amount ih =>
      have next := step ih (.allocated type)
      simpa [allocateMany, List.range_succ, Nat.add_assoc] using next

theorem perform_keeps {past : List Deed} {heap : SyntheticHeap} (start : kept past heap)
    (operation : Operation) : kept (past ++ (operation.perform heap).1) (operation.perform heap).2 := by
  cases operation with
  | define wanted => exact step start (define_does heap wanted)
  | defineClass name loader => exact step start (define_does heap ⟨name, .plain .concrete, [], loader⟩)
  | arrayOf component => exact step start (array_of_does heap component)
  | newLoader => exact step start (.allocated loaderType)
  | allocate type => exact step start (.allocated type)
  | allocateMany type amount => exact allocate_many_keeps kept step start type amount
  | release object => exact step start (.released object)
  | configure threads nulls calls skips fails turns =>
      exact step start (.configured threads nulls calls skips fails turns)

theorem operated_keeps (past : List Deed) {heap : SyntheticHeap} (start : kept past heap)
    (operations : List Operation) :
    kept (past ++ (operated operations heap).1) (operated operations heap).2 := by
  induction operations generalizing past heap with
  | nil =>
      rw [operated, List.append_nil]
      exact start
  | cons operation operations ih =>
      have next := ih _ (perform_keeps kept step start operation)
      rw [List.append_assoc] at next
      exact next

end Keeping

theorem operated_append (first second : List Operation) (heap : SyntheticHeap) :
    (operated (first ++ second) heap).2 = (operated second (operated first heap).2).2 := by
  induction first generalizing heap with
  | nil => rfl
  | cons operation first ih => exact ih (operation.perform heap).2

/-- What a heap can become. -/
def Grows (heap after : SyntheticHeap) : Prop := ∃ operations, after = (operated operations heap).2

def Built (heap : SyntheticHeap) : Prop := Grows new heap

variable {heap between after : SyntheticHeap} {deed : Deed}

theorem grows_refl (heap : SyntheticHeap) : Grows heap heap := ⟨[], rfl⟩

theorem grows_trans (first : Grows heap between) (second : Grows between after) : Grows heap after := by
  obtain ⟨operations, rfl⟩ := first
  obtain ⟨later, rfl⟩ := second
  exact ⟨operations ++ later, (operated_append operations later heap).symm⟩

theorem grows_array_of (heap : SyntheticHeap) (component : HeapClass) : Grows heap (heap.arrayOf component).2 :=
  ⟨[.arrayOf component], rfl⟩

theorem grows_calls (heap : SyntheticHeap) (calls : Nat) : Grows heap { heap with calls := calls } :=
  ⟨[.configure heap.emitThreads heap.emitNulls calls heap.skipCompletion heap.failScans heap.turns], rfl⟩

/-- No class is ever taken away, and no array. -/
structure Holds (heap after : SyntheticHeap) : Prop where
  definitions : heap.definitions ⊆ after.definitions
  arrays : heap.arrays ⊆ after.arrays

theorem holds_does (does : Does heap deed after) : Holds heap after := by
  cases does with
  | made => exact ⟨List.subset_append_left heap.definitions _, List.Subset.refl _⟩
  | arrayed => exact ⟨List.Subset.refl _, List.subset_append_left heap.arrays _⟩
  | known | interned | allocated | released | configured => exact ⟨List.Subset.refl _, List.Subset.refl _⟩

theorem holds_trans (first : Holds heap between) (second : Holds between after) : Holds heap after :=
  ⟨List.Subset.trans first.definitions second.definitions, List.Subset.trans first.arrays second.arrays⟩

theorem holds_grows (grows : Grows heap after) : Holds heap after := by
  obtain ⟨operations, rfl⟩ := grows
  have start : Holds heap heap := ⟨List.Subset.refl _, List.Subset.refl _⟩
  exact operated_keeps (fun _ => Holds heap) (fun held does => holds_trans held (holds_does does)) [] start operations

theorem classes_grow (grows : Grows heap after) : heap.classes ⊆ after.classes := by
  obtain ⟨definitions, arrays⟩ := holds_grows grows
  intro type member
  rcases List.mem_append.mp member with known | primitive
  · rcases List.mem_append.mp known with defined | listed
    · exact List.mem_append_left _ (List.mem_append_left _ (definitions defined))
    · exact List.mem_append_left _ (List.mem_append_right _ (List.map_subset _ arrays listed))
  · exact List.mem_append_right _ primitive

theorem array_of_entry (heap : SyntheticHeap) (component : HeapClass) :
    (component.id, (heap.arrayOf component).1) ∈ (heap.arrayOf component).2.arrays := by
  cases found : heap.arrays.find? fun entry => entry.1 = component.id with
  | some entry =>
      have named : entry.1 = component.id := by simpa using List.find?_some found
      have held := List.mem_of_find?_eq_some found
      simp only [arrayOf, found]
      exact named ▸ held
  | none =>
      simp only [arrayOf, found]
      exact List.mem_append_right _ (List.mem_singleton.mpr rfl)

end HeapCensus.SyntheticHeap
