import HeapCensus.Proofs.Supertypes
import HeapCensus.Proofs.SyntheticHeap
import Mathlib

set_option autoImplicit false

namespace HeapCensus

namespace SupertypeTable

def above (table : SupertypeTable) (low : ClassId) : List ClassId :=
  ((table.find? fun row => row.1 = low).map Prod.snd).getD []

def entries (table : SupertypeTable) : Nat := (table.map fun row => row.2.length).sum

def unseenEntries (table : SupertypeTable) (seen : List ClassId) : Nat :=
  (table.map fun row => if row.1 ∈ seen then 0 else row.2.length).sum

/-- Tables in which every class has the same direct supertypes, in any order. -/
def Reordered (first second : SupertypeTable) : Prop := ∀ low, (first.above low).Perm (second.above low)

theorem rises_iff {table : SupertypeTable} {low high : ClassId} :
    table.Rises low high ↔ high ∈ table.above low := by
  unfold Rises above
  cases table.find? fun row => row.1 = low <;> simp

theorem reordered_rows {first second : SupertypeTable}
    (rows : List.Forall₂ (fun row other => row.1 = other.1 ∧ row.2.Perm other.2) first second) :
    first.Reordered second := by
  intro low
  induction rows with
  | nil => exact .nil
  | @cons row other first second same _ ih =>
      unfold above at ih ⊢
      by_cases named : row.1 = low
      · simpa [named, same.1 ▸ named] using same.2
      · simpa [named, same.1 ▸ named] using ih

theorem below_reordered {first second : SupertypeTable} (reordered : first.Reordered second)
    (low high : ClassId) : first.Below low high ↔ second.Below low high := by
  have same : first.Rises = second.Rises := by
    funext lower higher
    rw [rises_iff, rises_iff, (reordered lower).mem_iff]
  rw [Below, Below, same]

theorem unseen_entries_start (table : SupertypeTable) : table.unseenEntries [] = table.entries := by
  simp [unseenEntries, entries]

theorem unseen_entries_le (table : SupertypeTable) (current : ClassId) (seen : List ClassId) :
    table.unseenEntries (current :: seen) ≤ table.unseenEntries seen := by
  refine List.sum_le_sum fun row _ => ?_
  by_cases known : row.1 ∈ seen
  · rw [if_pos known, if_pos (List.mem_cons_of_mem current known)]
  · rw [if_neg known]
    split <;> omega

theorem above_add_unseen_le {current : ClassId} {seen : List ClassId} (fresh : current ∉ seen)
    (table : SupertypeTable) :
    (table.above current).length + table.unseenEntries (current :: seen) ≤ table.unseenEntries seen := by
  induction table with
  | nil => exact Nat.le_refl 0
  | cons row table ih =>
      by_cases named : row.1 = current
      · have first : above (row :: table) current = row.2 := by simp [above, named]
        have others := unseen_entries_le table current seen
        rw [first]
        simp only [unseenEntries, List.map_cons, List.sum_cons, named, fresh, List.mem_cons_self, if_true,
          if_false] at others ⊢
        omega
      · have later : above (row :: table) current = above table current := by simp [above, named]
        rw [later]
        simp only [unseenEntries, List.map_cons, List.sum_cons, List.mem_cons, named, false_or] at ih ⊢
        omega

/-- A search on its way: the classes it has followed, and the stack of those it has still to look at. -/
structure Climb where
  seen : List ClassId
  pending : List ClassId

inductive Turn where
  | ended (answer : Bool)
  | moved (next : Climb)

namespace Climb

def start (type : ClassId) : Climb := { seen := [], pending := [type] }

/-- One turn takes the class on top. Its supertypes are put onto the stack one after the other, so that the
last of them is on top. -/
def turn (table : SupertypeTable) (target : ClassId) (climb : Climb) : Turn :=
  match climb.pending with
  | [] => .ended false
  | current :: pending =>
      if current = target then .ended true
      else if current ∈ climb.seen then .moved { climb with pending := pending }
      else
        .moved { seen := current :: climb.seen, pending := (table.above current).reverse ++ pending }

def within (table : SupertypeTable) (target : ClassId) : Nat → Climb → Option Bool
  | 0, _ => none
  | turns + 1, climb =>
      match climb.turn table target with
      | .ended answer => some answer
      | .moved next => within table target turns next

def work (table : SupertypeTable) (climb : Climb) : Nat :=
  table.unseenEntries climb.seen + climb.pending.length

variable {table : SupertypeTable} {type target : ClassId} {climb next : Climb}

theorem turn_moved (moved : climb.turn table target = .moved next) :
    ∃ current pending, climb.pending = current :: pending ∧ current ≠ target ∧
      (current ∈ climb.seen ∧ next = { climb with pending := pending } ∨
        current ∉ climb.seen ∧
          next = { seen := current :: climb.seen, pending := (table.above current).reverse ++ pending }) := by
  obtain ⟨seen, pending⟩ := climb
  cases pending with
  | nil => cases moved
  | cons current pending =>
      refine ⟨current, pending, rfl, ?_⟩
      by_cases same : current = target
      · simp [turn, same] at moved
      · refine ⟨same, ?_⟩
        by_cases known : current ∈ seen
        · simp only [turn, same, known, if_false, if_true, Turn.moved.injEq] at moved
          exact .inl ⟨known, moved.symm⟩
        · simp only [turn, same, known, if_false, Turn.moved.injEq] at moved
          exact .inr ⟨known, moved.symm⟩

theorem work_decreases (moved : climb.turn table target = .moved next) :
    next.work table < climb.work table := by
  obtain ⟨current, pending, stack, _, ⟨_, rfl⟩ | ⟨fresh, rfl⟩⟩ := turn_moved moved
  · simp [work, stack]
  · have spent := above_add_unseen_le fresh table
    simp only [work, stack, List.length_append, List.length_reverse, List.length_cons]
    omega

theorem within_ends (target : ClassId) {turns : Nat} (enough : climb.work table < turns) :
    ∃ answer, within table target turns climb = some answer := by
  induction turns generalizing climb with
  | zero => exact absurd enough (Nat.not_lt_zero _)
  | succ turns ih =>
      rw [within]
      cases taken : climb.turn table target with
      | ended answer => exact ⟨answer, rfl⟩
      | moved next =>
          have less := work_decreases taken
          exact ih (by omega)

/-- What holds between the turns of a search that began at a class. -/
structure Explores (table : SupertypeTable) (type target : ClassId) (climb : Climb) : Prop where
  begun : type ∈ climb.seen ∨ type ∈ climb.pending
  reached : ∀ low ∈ climb.pending, table.Below type low
  followed : ∀ low ∈ climb.seen, ∀ high, table.Rises low high → high ∈ climb.seen ∨ high ∈ climb.pending
  missed : target ∉ climb.seen

theorem explores_start (table : SupertypeTable) (type target : ClassId) : Explores table type target (start type) where
  begun := .inr List.mem_cons_self
  reached := by
    intro low member
    obtain rfl := List.mem_singleton.mp member
    exact .refl
  followed := fun _ member => absurd member List.not_mem_nil
  missed := List.not_mem_nil

theorem explores_turn (explores : Explores table type target climb)
    (moved : climb.turn table target = .moved next) : Explores table type target next := by
  obtain ⟨current, pending, stack, other, ⟨known, rfl⟩ | ⟨_, rfl⟩⟩ := turn_moved moved
  · -- What is taken off the stack has been followed before.
    have kept : ∀ low, low ∈ climb.seen ∨ low ∈ climb.pending → low ∈ climb.seen ∨ low ∈ pending := by
      intro low held
      rw [stack, List.mem_cons] at held
      rcases held with before | rfl | later
      · exact .inl before
      · exact .inl known
      · exact .inr later
    exact
      { begun := kept type explores.begun
        reached := fun low member => explores.reached low (stack ▸ List.mem_cons_of_mem _ member)
        followed := fun low member high rises => kept high (explores.followed low member high rises)
        missed := explores.missed }
  · have kept : ∀ low, low ∈ climb.seen ∨ low ∈ climb.pending →
        low ∈ current :: climb.seen ∨ low ∈ (table.above current).reverse ++ pending := by
      intro low held
      rw [stack, List.mem_cons] at held
      rcases held with before | rfl | later
      · exact .inl (List.mem_cons_of_mem _ before)
      · exact .inl List.mem_cons_self
      · exact .inr (List.mem_append_right _ later)
    have here : table.Below type current := explores.reached current (stack ▸ List.mem_cons_self)
    refine ⟨kept type explores.begun, ?_, ?_, ?_⟩
    · intro low member
      rcases List.mem_append.mp member with fresh | waiting
      · exact here.tail (rises_iff.mpr (List.mem_reverse.mp fresh))
      · exact explores.reached low (stack ▸ List.mem_cons_of_mem _ waiting)
    · intro low member high rises
      rcases List.mem_cons.mp member with rfl | before
      · exact .inr (List.mem_append_left _ (List.mem_reverse.mpr (rises_iff.mp rises)))
      · exact kept high (explores.followed low before high rises)
    · exact List.not_mem_cons_of_ne_of_not_mem (Ne.symm other) explores.missed

theorem explores_ended {answer : Bool} (explores : Explores table type target climb)
    (ended : climb.turn table target = .ended answer) : answer = true ↔ table.Below type target := by
  obtain ⟨seen, pending⟩ := climb
  cases pending with
  | nil =>
      obtain rfl : false = answer := Turn.ended.inj ended
      have closed : ∀ high, table.Below type high → high ∈ seen := by
        intro high below
        induction below with
        | refl => exact explores.begun.resolve_right List.not_mem_nil
        | tail _ rises ih => exact (explores.followed _ ih _ rises).resolve_right List.not_mem_nil
      exact ⟨fun found => absurd found Bool.false_ne_true, fun below => absurd (closed target below) explores.missed⟩
  | cons current pending =>
      by_cases same : current = target
      · have found : true = answer := by simpa [turn, same] using ended
        have here := explores.reached current List.mem_cons_self
        exact ⟨fun _ => same ▸ here, fun _ => found.symm⟩
      · by_cases known : current ∈ seen <;> simp [turn, same, known] at ended

theorem within_iff {turns : Nat} {answer : Bool} (explores : Explores table type target climb)
    (ended : within table target turns climb = some answer) : answer = true ↔ table.Below type target := by
  induction turns generalizing climb with
  | zero => cases ended
  | succ turns ih =>
      rw [within] at ended
      cases taken : climb.turn table target with
      | ended reply =>
          rw [taken] at ended
          obtain rfl := Option.some.inj ended
          exact explores_ended explores taken
      | moved next =>
          rw [taken] at ended
          exact ih (explores_turn explores taken) ended

theorem within_eq_search {turns : Nat} (enough : table.entries + 2 ≤ turns) :
    within table target turns (start type) = some (table.isSubtype type target) := by
  have whole : (start type).work table < turns := by
    rw [work, start, unseen_entries_start]
    exact enough
  obtain ⟨answer, ended⟩ := within_ends target whole
  have same : answer = true ↔ table.isSubtype type target = true := by
    rw [within_iff (explores_start table type target) ended, is_subtype_iff]
  rw [ended, Bool.eq_iff_iff.mpr same]

end Climb

end SupertypeTable

namespace SyntheticHeap

open SupertypeTable

structure SearchesSupertypes (heap : SyntheticHeap) : Prop where
  ends : ∀ (type target : HeapClass) (turns : Nat), heap.supertypes.entries + 2 ≤ turns →
    Climb.within heap.supertypes target.id turns (.start type.id) = some (heap.isSubtype type target)
  reaches : ∀ type target : HeapClass,
    heap.isSubtype type target = true ↔ Relation.ReflTransGen heap.supertypes.Rises type.id target.id
  reflexive : ∀ type target : HeapClass, type.id = target.id → heap.isSubtype type target = true
  transitive : ∀ low middle high : HeapClass,
    heap.isSubtype low middle = true → heap.isSubtype middle high = true → heap.isSubtype low high = true
  unordered : ∀ other : SyntheticHeap, heap.supertypes.Reordered other.supertypes →
    ∀ type target : HeapClass, other.isSubtype type target = heap.isSubtype type target
  -- Whatever right answers are remembered already, also those of a query on its way.
  remembered : ∀ (target : HeapClass) (known : List (ClassId × Bool)) (objects : List HeapObject),
    (∀ entry ∈ known, ∀ type : HeapClass, type.id = entry.1 → heap.isSubtype type target = entry.2) →
    sift (fun type => heap.isSubtype type target) known objects =
      objects.filter fun object => heap.isSubtype object.type target
  selected : ∀ (target : HeapClass) (max : UInt32),
    heap.any target max = (heap.objects.filter fun object => heap.isSubtype object.type target).take max.toNat

theorem supertypes_searched (heap : SyntheticHeap) : SearchesSupertypes heap where
  ends := fun _ _ _ enough => Climb.within_eq_search enough
  reaches := fun type target => is_subtype_iff heap.supertypes type.id target.id
  reflexive := by
    intro type target same
    refine (is_subtype_iff _ _ _).mpr ?_
    rw [same]
    exact .refl
  transitive := by
    intro low middle high lower upper
    have first := (is_subtype_iff _ _ _).mp lower
    have second := (is_subtype_iff _ _ _).mp upper
    exact (is_subtype_iff _ _ _).mpr (first.trans second)
  unordered := by
    intro other reordered type target
    refine Bool.eq_iff_iff.mpr ?_
    rw [isSubtype, isSubtype, is_subtype_iff, is_subtype_iff, below_reordered reordered]
  remembered := by
    intro target known objects right
    refine sift_eq_filter _ ?_ known objects right
    intro first second same
    rw [isSubtype, isSubtype, same]
  selected := any_eq_take heap

def looped : SyntheticHeap :=
  { new with supertypes := [(⟨20⟩, [⟨21⟩, ⟨22⟩]), (⟨21⟩, [⟨22⟩, ⟨20⟩, ⟨22⟩]), (⟨22⟩, [⟨1⟩])] }

def loopedBack : SyntheticHeap :=
  { new with supertypes := [(⟨20⟩, [⟨22⟩, ⟨21⟩]), (⟨21⟩, [⟨22⟩, ⟨22⟩, ⟨20⟩]), (⟨22⟩, [⟨1⟩])] }

theorem looped_searched :
    looped.supertypes.entries + 2 ≤ 8 ∧ looped.supertypes.Reordered loopedBack.supertypes ∧
      loopedBack.isSubtype (.concrete ⟨21⟩ "Low" none) objectClass = true ∧
      loopedBack.isSubtype objectClass (.concrete ⟨21⟩ "Low" none) = false := by
  have enough : looped.supertypes.entries + 2 ≤ 8 := by decide
  have reordered : looped.supertypes.Reordered loopedBack.supertypes :=
    reordered_rows (.cons ⟨rfl, by decide⟩ (.cons ⟨rfl, by decide⟩ (.cons ⟨rfl, by decide⟩ .nil)))
  have searched := supertypes_searched looped
  refine ⟨enough, reordered, ?_, ?_⟩
  · rw [searched.unordered loopedBack reordered]
    exact Option.some.inj ((searched.ends _ _ 8 enough).symm.trans (by decide))
  · rw [searched.unordered loopedBack reordered]
    exact Option.some.inj ((searched.ends _ _ 8 enough).symm.trans (by decide))

end SyntheticHeap

end HeapCensus
