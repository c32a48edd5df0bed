import HeapCensus.Double
import HeapCensus.Outcome

set_option autoImplicit false

namespace HeapCensus

/-- Latencies in milliseconds. The samples stand in `size` of the ring's `capacity` slots, in a circle from
`head` on; the other slots hold what was left there. At first every slot is zero. A slot that was never
written is not kept, and the kept ones are the first of the ring. -/
structure Latency where
  capacity : Nat
  slots : Array UInt64
  head : Nat
  size : Nat
  -- How many were added since the count was last set to zero.
  count : Nat
  head_lt : head < capacity
  size_le : size ≤ slots.size
  slots_le : slots.size ≤ capacity
  head_eq_zero : size < capacity → head = 0

structure LatencyStats where
  count : Nat
  size : Nat
  capacity : Nat
  average : Option Float
  min : Option UInt64
  max : Option UInt64
  last : Option UInt64

inductive LatencyError where
  | zeroCapacity
  deriving DecidableEq, Repr

def LatencyError.message : LatencyError → String
  | .zeroCapacity => "Timing history capacity must be at least 1"

namespace Latency

def defaultCapacity : Nat := 1000

def empty (capacity : Nat) (positive : 0 < capacity) : Latency where
  capacity := capacity
  slots := #[]
  head := 0
  size := 0
  count := 0
  head_lt := positive
  size_le := Nat.le_refl _
  slots_le := Nat.zero_le _
  head_eq_zero _ := rfl

def slotLimit : Nat := 1 <<< 60

def new (capacity : Nat) : Outcome LatencyError Latency :=
  if positive : 0 < capacity then
    if capacity < slotLimit then .ok (empty capacity positive) else .error (.panic .noRoom)
  else Outcome.fail .zeroCapacity

def index (history : Latency) (age : Nat) : Nat := (history.head + age) % history.capacity

theorem capacity_pos (history : Latency) : 0 < history.capacity :=
  Nat.zero_lt_of_lt history.head_lt

theorem size_le_capacity (history : Latency) : history.size ≤ history.capacity :=
  Nat.le_trans history.size_le history.slots_le

theorem index_lt (history : Latency) (age : Nat) : history.index age < history.capacity :=
  Nat.mod_lt _ history.capacity_pos

theorem index_of_room (history : Latency) (age : Nat) (room : history.size < history.capacity)
    (within : age ≤ history.size) : history.index age = age := by
  rw [index, history.head_eq_zero room, Nat.zero_add, Nat.mod_eq_of_lt (Nat.lt_of_le_of_lt within room)]

theorem slots_full (history : Latency) (full : ¬ history.size < history.capacity) :
    history.slots.size = history.capacity := by
  have size := history.size_le
  have slots := history.slots_le
  omega

theorem index_lt_kept (history : Latency) (age : Fin history.size) :
    history.index age < history.slots.size := by
  by_cases room : history.size < history.capacity
  · rw [history.index_of_room age room (Nat.le_of_lt age.isLt)]
    exact Nat.lt_of_lt_of_le age.isLt history.size_le
  · rw [history.slots_full room]
    exact history.index_lt age

def slot (history : Latency) (age : Fin history.size) : UInt64 :=
  have within := history.index_lt_kept age
  history.slots[history.index age]

def samples (history : Latency) : List UInt64 := List.ofFn history.slot

/-- A slot that is written for the first time comes right behind those that are kept. -/
def write (slots : Array UInt64) (place : Nat) (sample : UInt64) : Array UInt64 :=
  if within : place < slots.size then slots.set place sample within else slots.push sample

theorem size_write (slots : Array UInt64) (place : Nat) (sample : UInt64) (next : place ≤ slots.size) :
    (write slots place sample).size = max slots.size (place + 1) := by
  unfold write
  split
  case isTrue within => rw [Array.size_set, Nat.max_eq_left within]
  case isFalse outside =>
    have last : place = slots.size := Nat.le_antisymm next (Nat.le_of_not_lt outside)
    rw [Array.size_push, last, Nat.max_eq_right (Nat.le_succ _)]

theorem size_write_next (history : Latency) (sample : UInt64) (room : history.size < history.capacity) :
    (write history.slots (history.index history.size) sample).size =
      max history.slots.size (history.size + 1) := by
  rw [history.index_of_room history.size room (Nat.le_refl _)]
  exact size_write _ _ _ history.size_le

theorem size_write_head (history : Latency) (sample : UInt64) (full : ¬ history.size < history.capacity) :
    (write history.slots history.head sample).size = history.capacity := by
  have kept := history.slots_full full
  have within : history.head + 1 ≤ history.slots.size := kept ▸ history.head_lt
  rw [size_write _ _ _ (Nat.le_of_lt within), Nat.max_eq_left within, kept]

def add (history : Latency) (sample : UInt64) : Latency :=
  if room : history.size < history.capacity then
    { history with
      slots := write history.slots (history.index history.size) sample
      size := history.size + 1
      count := history.count + 1
      size_le := by
        rw [history.size_write_next sample room]
        exact Nat.le_max_right _ _
      slots_le := by
        rw [history.size_write_next sample room]
        exact Nat.max_le.mpr ⟨history.slots_le, room⟩
      head_eq_zero := fun _ => history.head_eq_zero room }
  else
    { history with
      slots := write history.slots history.head sample
      head := (history.head + 1) % history.capacity
      count := history.count + 1
      head_lt := Nat.mod_lt _ history.capacity_pos
      size_le := by
        rw [history.size_write_head sample room]
        exact history.size_le_capacity
      slots_le := Nat.le_of_eq (history.size_write_head sample room)
      head_eq_zero := fun smaller => absurd smaller room }

theorem capacity_add (history : Latency) (sample : UInt64) :
    (history.add sample).capacity = history.capacity := by
  unfold add
  split <;> rfl

theorem count_add (history : Latency) (sample : UInt64) :
    (history.add sample).count = history.count + 1 := by
  unfold add
  split <;> rfl

def millis (nanoseconds : Nat) : UInt64 :=
  (Nat.min (nanoseconds / 1000000) (UInt64.size - 1)).toUInt64

def addElapsed (history : Latency) (nanoseconds : Nat) : Latency :=
  history.add (millis nanoseconds)

def reset (history : Latency) : Latency :=
  { history with
    head := 0
    size := 0
    head_lt := history.capacity_pos
    size_le := Nat.zero_le _
    head_eq_zero := fun _ => rfl }

def resetAll (history : Latency) : Latency := { history.reset with count := 0 }

def isEmpty (history : Latency) : Bool := history.size = 0

def sum (history : Latency) : Nat := history.samples.foldr (fun sample total => sample.toNat + total) 0

def average (history : Latency) : Option Float :=
  if history.size = 0 then none else some (Double.ratio history.sum history.size)

def min (history : Latency) : Option UInt64 := history.samples.min?

def max (history : Latency) : Option UInt64 := history.samples.max?

def last (history : Latency) : Option UInt64 :=
  if held : 0 < history.size then
    some (history.slot ⟨history.size - 1, Nat.sub_lt held Nat.one_pos⟩)
  else none

structure Survey where
  sum : Nat := 0
  min : UInt64 := UInt64.ofNat (UInt64.size - 1)
  max : UInt64 := 0
  last : UInt64 := 0

def Survey.see (seen : Survey) (sample : UInt64) : Survey where
  sum := seen.sum + sample.toNat
  min := if sample < seen.min then sample else seen.min
  max := if seen.max < sample then sample else seen.max
  last := sample

def stats (history : Latency) : LatencyStats :=
  let seen := history.samples.foldl Survey.see {}
  let whenHeld {α : Type} (value : α) : Option α := if history.size = 0 then none else some value
  { count := history.count
    size := history.size
    capacity := history.capacity
    average := whenHeld (Double.ratio seen.sum history.size)
    min := whenHeld seen.min
    max := whenHeld seen.max
    last := whenHeld seen.last }

end Latency

end HeapCensus
