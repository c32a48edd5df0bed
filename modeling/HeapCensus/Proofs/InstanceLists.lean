import HeapCensus.Proofs.ClassCache
import Mathlib.Data.List.ReduceOption

set_option autoImplicit false

namespace HeapCensus.Binding

/-- A visited pair as it is understood: no object under 0, whatever the handle beside it. -/
inductive Sees (binding : Binding) : Nat × Nat → Option HeapObject → Prop
  | null (handle : Nat) : Sees binding (0, handle) none
  | object {object handle : Nat} {type : HeapClass} :
      object ≠ 0 → binding.answer? handle = some (.ok type) → Sees binding (object, handle) (some ⟨⟨object⟩, type⟩)

inductive Misses (binding : Binding) : Nat × Nat → WalkerError → Prop
  | object {object handle : Nat} {error : WalkerError} :
      object ≠ 0 → binding.answer? handle = some (.error error) → Misses binding (object, handle) error

/-- A walk up to the first object whose class cannot be looked up, and the error of that lookup. -/
inductive Walked (binding : Binding) : List (Nat × Nat) → List (Option HeapObject) → Option WalkerError → Prop
  | done : Walked binding [] [] none
  | cut {visit : Nat × Nat} {visits : List (Nat × Nat)} {error : WalkerError} :
      Misses binding visit error → Walked binding (visit :: visits) [] (some error)
  | next {visit : Nat × Nat} {visits : List (Nat × Nat)} {slot : Option HeapObject}
      {slots : List (Option HeapObject)} {failure : Option WalkerError} :
      Sees binding visit slot → Walked binding visits slots failure →
      Walked binding (visit :: visits) (slot :: slots) failure

/-- Each class that a walk asks for has components that come to an end. -/
def WalkSettles (binding : Binding) (visits : List (Nat × Nat)) : Prop :=
  ∀ object handle, (object, handle) ∈ visits → object ≠ 0 → Settles binding handle

variable {start binding : Binding} {visit : Nat × Nat} {visits : List (Nat × Nat)}
  {slots : List (Option HeapObject)} {failure : Option WalkerError}

theorem walk_settles_of_grounded (grounded : Grounded binding.agent) (visits : List (Nat × Nat)) :
    WalkSettles binding visits :=
  fun _ handle _ _ => settles_of_grounded grounded handle

theorem sees_or_misses (settles : WalkSettles binding [visit]) :
    (∃ slot, Sees binding visit slot) ∨ ∃ error, Misses binding visit error := by
  obtain ⟨object, handle⟩ := visit
  by_cases nothing : object = 0
  · exact .inl ⟨none, nothing ▸ .null handle⟩
  · obtain ⟨result, found⟩ := answer_settled (settles object handle List.mem_cons_self nothing)
    cases result with
    | ok type => exact .inl ⟨_, .object nothing found⟩
    | error error => exact .inr ⟨error, .object nothing found⟩

theorem walked_total (settles : WalkSettles binding visits) :
    ∃ slots failure, Walked binding visits slots failure := by
  induction visits with
  | nil => exact ⟨[], none, .done⟩
  | cons visit visits ih =>
      have first : WalkSettles binding [visit] := fun object handle member =>
        settles object handle (List.mem_cons.mpr (.inl (List.mem_singleton.mp member)))
      rcases sees_or_misses first with ⟨slot, sees⟩ | ⟨error, misses⟩
      · obtain ⟨slots, failure, walked⟩ := ih fun object handle member =>
          settles object handle (List.mem_cons_of_mem visit member)
        exact ⟨slot :: slots, failure, .next sees walked⟩
      · exact ⟨[], some error, .cut misses⟩

theorem walked_whole : Walked binding visits slots none ↔ List.Forall₂ (Sees binding) visits slots := by
  constructor
  · intro walked
    generalize failed : (none : Option WalkerError) = failure at walked
    induction walked with
    | done => exact .nil
    | cut => cases failed
    | next sees _ ih => exact .cons sees (ih failed)
  · intro all
    induction all with
    | nil => exact .done
    | cons sees _ ih => exact .next sees ih

theorem seen_each (seen : List.Forall₂ (Sees binding) visits slots) :
    ∀ visit ∈ visits, ∃ slot, Sees binding visit slot := by
  induction seen with
  | nil => exact nofun
  | cons sees _ ih => exact List.forall_mem_cons.mpr ⟨⟨_, sees⟩, ih⟩

theorem walked_cut {front : List (Nat × Nat)} (rest : List (Nat × Nat)) {error : WalkerError}
    (resolved : ∀ each ∈ front, ∃ slot, Sees binding each slot) (misses : Misses binding visit error) :
    ∃ slots, List.Forall₂ (Sees binding) front slots ∧
      Walked binding (front ++ visit :: rest) slots (some error) := by
  induction front with
  | nil => exact ⟨[], .nil, .cut misses⟩
  | cons each front ih =>
      obtain ⟨⟨slot, sees⟩, others⟩ := List.forall_mem_cons.mp resolved
      obtain ⟨slots, seen, walked⟩ := ih others
      exact ⟨slot :: slots, .cons sees seen, .next sees walked⟩

theorem sees_unique {one other : Option HeapObject} (first : Sees binding visit one)
    (second : Sees binding visit other) : one = other := by
  cases first with
  | null =>
      cases second with
      | null => rfl
      | object positive => exact absurd rfl positive
  | object positive found =>
      cases second with
      | null => exact absurd rfl positive
      | object _ again => rw [Except.ok.inj (Option.some.inj (found.symm.trans again))]

theorem misses_unseen {error : WalkerError} {slot : Option HeapObject} (misses : Misses binding visit error) :
    ¬ Sees binding visit slot := by
  intro sees
  cases misses with
  | object positive failed =>
      cases sees with
      | null => exact positive rfl
      | object _ found => cases failed.symm.trans found

theorem walked_unique {others : List (Option HeapObject)} {cause : Option WalkerError}
    (first : Walked binding visits slots failure) (second : Walked binding visits others cause) :
    slots = others ∧ failure = cause := by
  induction first generalizing others with
  | done =>
      cases second
      exact ⟨rfl, rfl⟩
  | cut misses =>
      cases second with
      | next sees => exact absurd sees (misses_unseen misses)
      | cut again =>
          cases misses with
          | object _ failed =>
              cases again with
              | object _ same => exact ⟨rfl, congrArg some (Except.error.inj (Option.some.inj (failed.symm.trans same)))⟩
  | next sees _ ih =>
      cases second with
      | cut misses => exact absurd sees (misses_unseen misses)
      | next again walked =>
          obtain ⟨rfl, rfl⟩ := ih walked
          exact ⟨congrArg (· :: _) (sees_unique sees again), rfl⟩

theorem walked_failed {error : WalkerError} (walked : Walked binding visits slots (some error)) :
    ∃ visit ∈ visits, Misses binding visit error := by
  generalize failed : some error = failure at walked
  induction walked with
  | done => cases failed
  | cut misses =>
      cases failed
      exact ⟨_, List.mem_cons_self, misses⟩
  | next _ _ ih =>
      obtain ⟨visit, member, misses⟩ := ih failed
      exact ⟨visit, List.mem_cons_of_mem _ member, misses⟩

theorem remembers_visited (left : Remembers start binding) : Remembers start binding.visited :=
  ⟨left.agent, left.kept, left.read⟩

theorem gather_null (handle : Nat) (visits : List (Nat × Nat)) :
    binding.gather ((0, handle) :: visits) = binding.visited.gather visits := by
  rw [gather, if_pos rfl]

theorem gather_missed {object handle : Nat} {error : WalkerError} (other : object ≠ 0)
    (failed : (binding.visited.lookup handle).1 = .error error) (visits : List (Nat × Nat)) :
    binding.gather ((object, handle) :: visits) = (.error error, (binding.visited.lookup handle).2) := by
  rw [gather, if_neg other]
  revert failed
  cases binding.visited.lookup handle
  rintro rfl
  rfl

theorem gather_seen {object handle : Nat} {type : HeapClass} (other : object ≠ 0)
    (found : (binding.visited.lookup handle).1 = .ok type) (visits : List (Nat × Nat)) :
    binding.gather ((object, handle) :: visits) =
      ((binding.visited.lookup handle).2.gather visits).map (·.map (⟨⟨object⟩, type⟩ :: ·)) id := by
  rw [gather, if_neg other]
  revert found
  obtain ⟨answer, after⟩ := binding.visited.lookup handle
  rintro rfl
  cases gathered : after.gather visits with
  | mk result last =>
      simp only [gathered]
      cases result <;> rfl

def listed (slots : List (Option HeapObject)) : Option WalkerError → Except WalkerError (List HeapObject)
  | none => .ok slots.reduceOption
  | some error => .error error

theorem gather_walked (left : Remembers start binding) (walked : Walked start visits slots failure) :
    (binding.gather visits).1 = listed slots failure := by
  induction walked generalizing binding with
  | done => rfl
  | cut misses =>
      cases misses with
      | object other failed =>
          have again := lookup_answered ((answer_stable (remembers_visited left) _).trans failed)
          rw [gather_missed other again]
          rfl
  | @next _ _ _ slots failure sees _ ih =>
      cases sees with
      | null handle =>
          rw [gather_null, ih (remembers_visited left)]
          cases failure <;> rfl
      | @object object handle type other found =>
          have now := remembers_visited left
          have again := lookup_answered ((answer_stable now _).trans found)
          have next := ih (remembers_trans now (lookup_remembers binding.visited handle))
          rw [gather_seen other again]
          refine (congrArg (Except.map _) next).trans ?_
          cases failure <;> rfl

theorem used_gather (used : Used binding) (visits : List (Nat × Nat)) : Used (binding.gather visits).2 := by
  induction visits generalizing binding with
  | nil => exact used
  | cons visit visits ih =>
      obtain ⟨object, handle⟩ := visit
      by_cases nothing : object = 0
      · rw [nothing, gather_null]
        exact ih (.visited used)
      · have looked : Used (binding.visited.lookup handle).2 := .looked handle (.visited used)
        cases found : (binding.visited.lookup handle).1 with
        | ok type =>
            rw [gather_seen nothing found]
            exact ih looked
        | error error =>
            rw [gather_missed nothing found]
            exact looked

theorem collect_call (binding : Binding) (operation : String) (walk : Agent → AgentWalk) :
    (collect operation walk).call binding =
      (Outcome.ofExcept (check operation (walk binding.agent).status >>= fun _ =>
        (binding.gather (walk binding.agent).visits).1),
        (binding.gather (walk binding.agent).visits).2) := by
  have unfolded : (collect operation walk).call binding =
      (ExceptT.run (do
        ExceptT.mk (pure (Outcome.ofExcept (check operation (walk binding.agent).status)))
        ExceptT.mk (pure (Outcome.ofExcept (binding.gather (walk binding.agent).visits).1)) :
          Walk Binding (List HeapObject))).run (binding.gather (walk binding.agent).visits).2 := rfl
  rw [unfolded]
  cases check operation (walk binding.agent).status <;> rfl

/-- A list is all that the agent has visited, or there is none. -/
structure AllOrNothing (binding : Binding) (operation : String) (walk : AgentWalk)
    (outcome : Outcome WalkerError (List HeapObject)) : Prop where
  succeeds : (∃ objects, outcome = .ok objects) ↔
    walk.status = 0 ∧
      ∀ object handle, (object, handle) ∈ walk.visits → object ≠ 0 →
        ∃ type, binding.answer? handle = some (.ok type)
  whole : ∀ objects, outcome = .ok objects →
    ∃ slots, List.Forall₂ (Sees binding) walk.visits slots ∧ objects = slots.reduceOption
  refused : walk.status ≠ 0 → outcome = Outcome.fail (.native operation walk.status)
  unresolved : ∀ front visit rest error, walk.status = 0 → walk.visits = front ++ visit :: rest →
    (∀ each ∈ front, ∃ slot, Sees binding each slot) → Misses binding visit error → outcome = Outcome.fail error

theorem walked_all_or_nothing (operation : String) {walk : AgentWalk}
    (walked : Walked binding walk.visits slots failure) :
    AllOrNothing binding operation walk
      (Outcome.ofExcept (check operation walk.status >>= fun _ => listed slots failure)) := by
  by_cases success : walk.status = 0
  · have checked : check operation walk.status = .ok () := if_pos success
    rw [checked]
    constructor
    case refused => exact fun status => absurd success status
    case unresolved =>
      intro front visit rest error _ whole resolved misses
      obtain ⟨seen, _, cut⟩ := walked_cut rest resolved misses
      rw [whole] at walked
      obtain ⟨_, rfl⟩ := walked_unique walked cut
      rfl
    case whole =>
      intro objects same
      cases failure with
      | none => exact ⟨slots, walked_whole.mp walked, (Except.ok.inj same).symm⟩
      | some error => cases same
    case succeeds =>
      cases failure with
      | none =>
          refine iff_of_true ⟨_, rfl⟩ ⟨success, fun object handle member other => ?_⟩
          obtain ⟨slot, sees⟩ := seen_each (walked_whole.mp walked) _ member
          cases sees with
          | null => exact absurd rfl other
          | object _ found => exact ⟨_, found⟩
      | some error =>
          obtain ⟨⟨object, handle⟩, member, misses⟩ := walked_failed walked
          refine iff_of_false nofun fun ⟨_, resolved⟩ => ?_
          cases misses with
          | object other failed =>
              obtain ⟨type, found⟩ := resolved object handle member other
              cases failed.symm.trans found
  · have refused : check operation walk.status = .error (.native operation walk.status) := if_neg success
    rw [refused]
    constructor
    case succeeds => exact iff_of_false nofun fun all => success all.1
    case whole => exact nofun
    case refused => exact fun _ => rfl
    case unresolved => exact fun _ _ _ _ status => absurd status success

theorem collect_all_or_nothing (operation : String) (walk : Agent → AgentWalk)
    (settles : WalkSettles binding (walk binding.agent).visits) :
    AllOrNothing binding operation (walk binding.agent) ((collect operation walk).call binding).1 := by
  obtain ⟨slots, failure, walked⟩ := walked_total settles
  rw [collect_call, gather_walked (remembers_refl binding) walked]
  exact walked_all_or_nothing operation walked

theorem used_collect (used : Used binding) (operation : String) (walk : Agent → AgentWalk) :
    Used ((collect operation walk).call binding).2 := by
  rw [collect_call]
  exact used_gather used _

/-- Lists whose classes are nested arrays; the second has an object of a class that is refused. -/
def stocking : Agent :=
  { nested with
    walkExact := fun _ _ => ⟨[(0, 9), (1, 3), (2, 1)], 0⟩
    walkAny := fun _ _ => ⟨[(1, 3), (0, 1), (2, 9), (3, 4)], 0⟩ }

def stocked : Binding := ⟨stocking, [], "library", true, 0, 0⟩

end HeapCensus.Binding
