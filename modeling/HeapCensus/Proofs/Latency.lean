import HeapCensus.Latency
import Mathlib.Data.List.DropRight
import Mathlib.Data.List.Induction

set_option autoImplicit false

namespace HeapCensus.Latency

theorem write_self (slots : Array UInt64) (place : Nat) (sample : UInt64) (next : place ≤ slots.size) :
    (write slots place sample)[place]? = some sample := by
  unfold write
  split
  case isTrue within => rw [Array.getElem?_set_self within]
  case isFalse outside =>
    have last : place = slots.size := Nat.le_antisymm next (Nat.le_of_not_lt outside)
    rw [last, Array.getElem?_push_size]

theorem write_other (slots : Array UInt64) (place other : Nat) (sample : UInt64)
    (next : place ≤ slots.size) (different : other ≠ place) :
    (write slots place sample)[other]? = slots[other]? := by
  unfold write
  split
  case isTrue within => rw [Array.getElem?_set_ne within different.symm]
  case isFalse outside =>
    have last : place = slots.size := Nat.le_antisymm next (Nat.le_of_not_lt outside)
    rw [Array.getElem?_push, if_neg (last ▸ different)]

theorem length_samples (history : Latency) : history.samples.length = history.size :=
  List.length_ofFn

theorem samples_at (history : Latency) (age : Nat) (within : age < history.size) :
    history.samples[age]? = history.slots[history.index age]? := by
  rw [samples, List.getElem?_ofFn, dif_pos within, slot]
  exact (Array.getElem?_eq_getElem _).symm

theorem samples_beyond (history : Latency) (age : Nat) (beyond : history.size ≤ age) :
    history.samples[age]? = none :=
  List.getElem?_eq_none (history.length_samples.symm ▸ beyond)

theorem samples_add_room (history : Latency) (sample : UInt64) (room : history.size < history.capacity) :
    (history.add sample).samples = history.samples ++ [sample] := by
  have size : (history.add sample).size = history.size + 1 := by rw [add, dif_pos room]
  have slots : (history.add sample).slots = write history.slots history.size sample := by
    rw [← history.index_of_room history.size room (Nat.le_refl _), add, dif_pos room]
  have index : ∀ age, (history.add sample).index age = history.index age := by
    intro age
    rw [add, dif_pos room]
    rfl
  apply List.ext_getElem?
  intro age
  rcases Nat.lt_trichotomy age history.size with older | newest | beyond
  · have place := history.index_of_room age room (Nat.le_of_lt older)
    rw [List.getElem?_append_left (history.length_samples.symm ▸ older), samples_at _ _ (by omega),
      samples_at _ _ older, slots, index, place, write_other _ _ _ _ history.size_le (by omega)]
  · have place := history.index_of_room age room (Nat.le_of_eq newest)
    rw [samples_at _ _ (by omega), slots, index, place, newest, write_self _ _ _ history.size_le,
      ← history.length_samples, List.getElem?_concat_length]
  · rw [samples_beyond _ _ (by omega), List.getElem?_eq_none]
    rw [List.length_append, history.length_samples]
    exact beyond

theorem index_capacity (history : Latency) : history.index history.capacity = history.head := by
  rw [index, Nat.add_mod_right, Nat.mod_eq_of_lt history.head_lt]

theorem index_ne_head (history : Latency) (age : Nat) (later : 0 < age) (within : age < history.capacity) :
    history.index age ≠ history.head := by
  have head := history.head_lt
  unfold index
  by_cases turned : history.head + age < history.capacity
  · rw [Nat.mod_eq_of_lt turned]
    omega
  · rw [Nat.mod_eq_sub_mod (Nat.le_of_not_lt turned), Nat.mod_eq_of_lt (by omega)]
    omega

theorem samples_add_full (history : Latency) (sample : UInt64) (full : ¬ history.size < history.capacity) :
    (history.add sample).samples = history.samples.tail ++ [sample] := by
  have whole : history.size = history.capacity :=
    Nat.le_antisymm history.size_le_capacity (Nat.le_of_not_lt full)
  have size : (history.add sample).size = history.capacity := by
    rw [add, dif_neg full]
    exact whole
  have slots : (history.add sample).slots = write history.slots history.head sample := by
    rw [add, dif_neg full]
  have index : ∀ age, (history.add sample).index age = history.index (age + 1) := by
    intro age
    simp only [add, dif_neg full, Latency.index, Nat.mod_add_mod]
    rw [Nat.add_assoc, Nat.add_comm 1 age]
  have next : history.head ≤ history.slots.size :=
    Nat.le_of_lt (history.slots_full full ▸ history.head_lt)
  have tail : history.samples.tail.length = history.capacity - 1 := by
    rw [List.length_tail, history.length_samples, whole]
  have positive := history.capacity_pos
  apply List.ext_getElem?
  intro age
  -- the write lands where the oldest sample stood: the others move up by one age
  rcases Nat.lt_trichotomy (age + 1) history.capacity with older | newest | beyond
  · have elsewhere := history.index_ne_head (age + 1) (Nat.succ_pos age) older
    rw [List.getElem?_append_left (by omega), List.getElem?_tail, samples_at _ _ (by omega),
      samples_at _ _ (by omega), slots, index, write_other _ _ _ _ next elsewhere]
  · have here : history.index (age + 1) = history.head := newest ▸ history.index_capacity
    have last : age = history.samples.tail.length := by omega
    rw [samples_at _ _ (by omega), slots, index, here, write_self _ _ _ next, last,
      List.getElem?_concat_length]
  · rw [samples_beyond _ _ (by omega), List.getElem?_eq_none]
    rw [List.length_append, tail, List.length_singleton]
    omega

theorem samples_add (history : Latency) (sample : UInt64) :
    (history.add sample).samples = (history.samples ++ [sample]).rtake history.capacity := by
  have size := history.size_le_capacity
  rw [List.rtake, List.length_append, List.length_singleton, history.length_samples]
  by_cases room : history.size < history.capacity
  · rw [Nat.sub_eq_zero_of_le room, List.drop_zero]
    exact history.samples_add_room sample room
  · have whole : history.size + 1 - history.capacity = 1 := by omega
    have positive := history.capacity_pos
    have held : 1 ≤ history.samples.length := by
      rw [history.length_samples]
      omega
    rw [whole, List.drop_append_of_le_length held, List.drop_one]
    exact history.samples_add_full sample room

theorem samples_reset (history : Latency) : history.reset.samples = [] :=
  List.eq_nil_of_length_eq_zero history.reset.length_samples

theorem last_eq (history : Latency) : history.last = history.samples.getLast? := by
  unfold last
  split
  case isTrue held =>
    rw [List.getLast?_eq_getElem?, history.length_samples, samples, List.getElem?_ofFn, dif_pos]
  case isFalse empty =>
    have nothing : history.samples = [] := by
      refine List.eq_nil_of_length_eq_zero ?_
      rw [history.length_samples]
      omega
    rw [nothing]
    rfl

inductive Change where
  | add (sample : UInt64)
  | addElapsed (nanoseconds : Nat)
  | reset
  | resetAll

namespace Change

def sample? : Change → Option UInt64
  | .add sample => some sample
  | .addElapsed nanoseconds => some (millis nanoseconds)
  | .reset => none
  | .resetAll => none

def empties : Change → Bool
  | .reset => true
  | .resetAll => true
  | _ => false

def restarts : Change → Bool
  | .resetAll => true
  | _ => false

end Change

def change (history : Latency) : Change → Latency
  | .add sample => history.add sample
  | .addElapsed nanoseconds => history.addElapsed nanoseconds
  | .reset => history.reset
  | .resetAll => history.resetAll

/-- What the changes have added since the last one that the mark is set for, oldest first. -/
def addedSince (mark : Change → Bool) (changes : List Change) : List UInt64 :=
  (changes.rtakeWhile fun change => !mark change).filterMap Change.sample?

theorem added_since_append (mark : Change → Bool) (changes : List Change) (change : Change) :
    addedSince mark (changes ++ [change]) =
      if mark change then [] else addedSince mark changes ++ change.sample?.toList := by
  rw [addedSince, List.rtakeWhile_concat]
  cases marked : mark change with
  | true => rfl
  | false =>
      cases added : change.sample? <;> simp [addedSince, added]

theorem rtake_append_rtake {α : Type} (items : List α) (item : α) (amount : Nat) :
    (items.rtake amount ++ [item]).rtake amount = (items ++ [item]).rtake amount := by
  cases amount with
  | zero => rw [List.rtake_zero, List.rtake_zero]
  | succ amount =>
      have shorter : (items.rtake (amount + 1)).rtake amount = items.rtake amount := by
        simp only [List.rtake_eq_reverse_take_reverse, List.reverse_reverse, List.take_take]
        rw [Nat.min_eq_left (Nat.le_succ amount)]
      rw [List.rtake_concat_succ, List.rtake_concat_succ, shorter]

theorem samples_change {history : Latency} {added : List UInt64}
    (holds : history.samples = added.rtake history.capacity) (change : Change) :
    (history.change change).samples =
      (if change.empties then [] else added ++ change.sample?.toList).rtake history.capacity := by
  have appended : ∀ sample, (history.add sample).samples = (added ++ [sample]).rtake history.capacity := by
    intro sample
    rw [samples_add, holds, rtake_append_rtake]
  cases change with
  | add sample => exact appended sample
  | addElapsed nanoseconds => exact appended (millis nanoseconds)
  | reset => exact history.samples_reset.trans (List.rtake_nil history.capacity).symm
  | resetAll => exact history.samples_reset.trans (List.rtake_nil history.capacity).symm

theorem count_change {history : Latency} {added : List UInt64} (counted : history.count = added.length)
    (change : Change) :
    (history.change change).count =
      (if change.restarts then [] else added ++ change.sample?.toList).length := by
  have more : ∀ sample, (history.add sample).count = (added ++ [sample]).length := by
    intro sample
    rw [count_add, counted, List.length_append, List.length_singleton]
  cases change with
  | add sample => exact more sample
  | addElapsed nanoseconds => exact more (millis nanoseconds)
  | reset => exact counted.trans (congrArg List.length (List.append_nil added).symm)
  | resetAll => rfl

theorem capacity_change (history : Latency) (change : Change) :
    (history.change change).capacity = history.capacity := by
  cases change with
  | add sample => exact history.capacity_add sample
  | addElapsed nanoseconds => exact history.capacity_add (millis nanoseconds)
  | reset => rfl
  | resetAll => rfl

/-- The samples of a ring and its count, told by the changes it went through. -/
structure Follows (capacity : Nat) (changes : List Change) (history : Latency) : Prop where
  capacity : history.capacity = capacity
  samples : history.samples = (addedSince Change.empties changes).rtake history.capacity
  count : history.count = (addedSince Change.restarts changes).length

theorem follows_change {capacity : Nat} {changes : List Change} {history : Latency}
    (follows : Follows capacity changes history) (change : Change) :
    Follows capacity (changes ++ [change]) (history.change change) := by
  refine ⟨(history.capacity_change change).trans follows.capacity, ?_, ?_⟩
  · rw [added_since_append, capacity_change]
    exact samples_change follows.samples change
  · rw [added_since_append]
    exact count_change follows.count change

theorem run_follows (capacity : Nat) (positive : 0 < capacity) (changes : List Change) :
    Follows capacity changes (changes.foldl change (empty capacity positive)) := by
  induction changes using List.reverseRecOn with
  | nil => exact ⟨rfl, (List.rtake_nil capacity).symm, rfl⟩
  | append_singleton changes change ih =>
      rw [List.foldl_append]
      exact follows_change ih change

theorem empties_of_restarts {change : Change} (restarts : change.restarts = true) :
    change.empties = true := by
  cases change with
  | resetAll => rfl
  | add | addElapsed | reset => cases restarts

theorem length_added_le (changes : List Change) :
    (addedSince Change.empties changes).length ≤ (addedSince Change.restarts changes).length := by
  induction changes using List.reverseRecOn with
  | nil => exact Nat.le_refl 0
  | append_singleton changes change ih =>
      rw [added_since_append, added_since_append]
      cases empties : change.empties with
      | true => exact Nat.zero_le _
      | false =>
          have kept : change.restarts ≠ true := fun restarts =>
            Bool.false_ne_true (empties.symm.trans (empties_of_restarts restarts))
          rw [if_neg Bool.false_ne_true, if_neg kept, List.length_append, List.length_append]
          exact Nat.add_le_add_right ih _

theorem ring_holds_newest (capacity : Nat) (positive : 0 < capacity) (changes : List Change) :
    let history := changes.foldl change (empty capacity positive)
    let added := addedSince Change.empties changes
    history.samples = added.rtake capacity ∧
      history.size = Nat.min capacity added.length ∧ history.size ≤ capacity ∧
      history.count = (addedSince Change.restarts changes).length ∧ history.size ≤ history.count ∧
      history.last = history.samples.getLast? ∧ history.last = added.getLast? ∧
      history.capacity = capacity ∧ history.head < capacity ∧ history.index history.size < capacity ∧
      (∀ age < history.size, history.index age < history.slots.size) ∧ history.slots.size ≤ capacity := by
  intro history added
  have follows := run_follows capacity positive changes
  have same := follows.capacity
  have samples : history.samples = added.rtake capacity := same ▸ follows.samples
  have size : history.size = Nat.min capacity added.length := by
    rw [← history.length_samples, samples, List.rtake, List.length_drop]
    exact (Nat.sub_sub_eq_min _ _).trans (Nat.min_comm _ _)
  have last : history.samples.getLast? = added.getLast? := by
    rw [samples, List.rtake, List.getLast?_drop]
    split
    case isTrue short =>
      have nothing : added = [] := List.eq_nil_of_length_eq_zero (by omega)
      rw [nothing]
      rfl
    case isFalse => rfl
  have counted : history.size ≤ history.count := by
    have fewer := length_added_le changes
    rw [follows.count, size]
    exact Nat.le_trans (Nat.min_le_right _ _) fewer
  exact ⟨samples, size, same ▸ history.size_le_capacity, follows.count, counted, history.last_eq,
    history.last_eq.trans last, same, same ▸ history.head_lt, same ▸ history.index_lt history.size,
    fun age older => history.index_lt_kept ⟨age, older⟩, same ▸ history.slots_le⟩

theorem wrapped_ring_holds_newest :
    let changes : List Change :=
      [.add 7, .add 8, .addElapsed 2500000, .reset, .add 4, .resetAll, .add 1, .addElapsed 2999999, .add 3,
        .reset, .add 5, .addElapsed 6000000, .add 9]
    let history := changes.foldl change (empty 2 (by decide))
    0 < 2 ∧ history.samples = [6, 9] ∧ history.size = 2 ∧ history.count = 6 ∧ history.last = some 9 := by
  intro changes history
  have positive : 0 < 2 := by decide
  obtain ⟨samples, size, _, count, _, _, last, _⟩ := ring_holds_newest 2 positive changes
  exact ⟨positive, samples.trans (by decide), size.trans (by decide), count.trans (by decide),
    last.trans (by decide)⟩

end HeapCensus.Latency
