import HeapCensus.Proofs.ClassRecord
import HeapCensus.Proofs.Counting
import Mathlib.Data.List.Infix

set_option autoImplicit false

namespace HeapCensus

namespace SyntheticHeap

/-- Allocated, and not released since. -/
def Live (past : List Deed) (object : HeapObject) : Prop :=
  ∃ before since, past = before ++ .allocated object :: since ∧ ∀ deed ∈ since, deed.freed? ≠ some object.id

variable {past : List Deed} {heap after : SyntheticHeap} {deed : Deed}

theorem live_snoc (past : List Deed) (deed : Deed) (object : HeapObject) :
    Live (past ++ [deed]) object ↔
      deed = .allocated object ∨ (Live past object ∧ deed.freed? ≠ some object.id) := by
  constructor
  · rintro ⟨before, since, told, kept⟩
    rcases List.eq_nil_or_concat since with rfl | ⟨others, last, rfl⟩
    · exact .inl (List.cons.inj (List.append_inj_right' told rfl)).1
    · rw [List.concat_eq_append, ← List.cons_append, ← List.append_assoc] at told
      obtain ⟨rfl, same⟩ := List.append_inj' told rfl
      obtain rfl := List.singleton_inj.mp same
      refine .inr ⟨⟨before, others, rfl, fun other member => ?_⟩, ?_⟩
      · apply kept
        simp [member]
      · apply kept
        simp
  · rintro (rfl | ⟨⟨before, since, rfl, kept⟩, unfreed⟩)
    · exact ⟨past, [], rfl, nofun⟩
    · refine ⟨before, since ++ [deed], by simp, fun other member => ?_⟩
      rcases List.mem_append.mp member with earlier | last
      · exact kept other earlier
      · rw [List.mem_singleton.mp last]
        exact unfreed

def Ascending (objects : List HeapObject) : Prop :=
  objects.Pairwise fun first second => first.id.value < second.id.value

/-- The table of the objects as the record says. An id that was given out does not come back. -/
structure Ordered (past : List Deed) (heap : SyntheticHeap) : Prop where
  ascending : Ascending heap.objects
  bounded : ∀ object ∈ heap.objects, object.id.value < heap.nextObject
  live : ∀ object, object ∈ heap.objects ↔ Live past object
  gone : ∀ object, .released object true ∈ past →
    object.id.value < heap.nextObject ∧ ∀ other ∈ heap.objects, other.id ≠ object.id

theorem ordered_new : Ordered [] new := by
  refine ⟨.nil, nofun, fun object => ⟨nofun, ?_⟩, nofun⟩
  rintro ⟨before, since, told, _⟩
  simp at told

theorem ordered_silent (kept : Ordered past heap) (gives : deed.object? = none) (frees : deed.freed? = none)
    (objects : after.objects = heap.objects) (next : after.nextObject = heap.nextObject) :
    Ordered (past ++ [deed]) after := by
  constructor
  · rw [objects]
    exact kept.ascending
  · rw [objects, next]
    exact kept.bounded
  · intro object
    have given : deed ≠ .allocated object := by
      rintro rfl
      cases gives
    rw [objects, live_snoc, kept.live, frees]
    simp [given]
  · intro object member
    rw [objects, next]
    rcases List.mem_append.mp member with before | now
    · exact kept.gone object before
    · rw [← List.mem_singleton.mp now] at frees
      cases frees

theorem ordered_allocated (kept : Ordered past heap) (type : HeapClass) :
    Ordered (past ++ [.allocated (heap.allocate type).1]) (heap.allocate type).2 := by
  constructor
  · refine List.pairwise_append.mpr ⟨kept.ascending, List.pairwise_singleton _ _, ?_⟩
    intro first member second last
    rw [List.mem_singleton.mp last]
    exact kept.bounded first member
  · intro object member
    rcases List.mem_append.mp member with before | added
    · exact Nat.lt_succ_of_lt (kept.bounded object before)
    · rw [List.mem_singleton.mp added]
      exact Nat.lt_succ_self _
  · intro object
    rw [live_snoc, ← kept.live]
    simp [allocate, Deed.freed?, or_comm, eq_comm]
  · intro object member
    have before : .released object true ∈ past := by simpa using member
    obtain ⟨numbered, absent⟩ := kept.gone object before
    apply And.intro (Nat.lt_succ_of_lt numbered)
    intro other held
    rcases List.mem_append.mp held with earlier | added
    · exact absent other earlier
    · rw [List.mem_singleton.mp added]
      intro same
      rw [← same] at numbered
      exact Nat.lt_irrefl _ numbered

theorem ordered_released (kept : Ordered past heap) (object : HeapObject) :
    Ordered (past ++ [.released object (heap.release object).1]) (heap.release object).2 := by
  constructor
  · exact kept.ascending.filter _
  · intro other member
    exact kept.bounded other (List.mem_of_mem_filter member)
  · intro other
    have unfreed : some object.id ≠ some other.id ↔ other.id ≠ object.id := by
      rw [Ne, Option.some_inj, eq_comm]
    rw [live_snoc, ← kept.live, Deed.freed?, unfreed]
    simp [release]
  · intro other member
    rcases List.mem_append.mp member with before | now
    · obtain ⟨numbered, absent⟩ := kept.gone other before
      exact ⟨numbered, fun held still => absent held (List.mem_of_mem_filter still)⟩
    · obtain ⟨rfl, found⟩ := Deed.released.inj (List.mem_singleton.mp now)
      obtain ⟨held, present, same⟩ := List.any_eq_true.mp found.symm
      constructor
      · rw [← of_decide_eq_true same]
        exact kept.bounded held present
      · intro still member
        exact of_decide_eq_true (List.mem_filter.mp member).2

theorem ordered_does (kept : Ordered past heap) (does : Does heap deed after) : Ordered (past ++ [deed]) after := by
  cases does with
  | known | made | interned | arrayed | configured => exact ordered_silent kept rfl rfl rfl rfl
  | allocated type => exact ordered_allocated kept type
  | released object => exact ordered_released kept object

/-- All live objects whose class belongs to a target, the oldest first. A release that found its object
keeps the id out for good. -/
structure Whole (past : List Deed) (belongs : HeapClass → Prop) (whole : List HeapObject) : Prop where
  ascending : Ascending whole
  members : ∀ object, object ∈ whole ↔ Live past object ∧ belongs object.type
  gone : ∀ object, .released object true ∈ past → ∀ other ∈ whole, other.id ≠ object.id

theorem whole_filter (kept : Ordered past heap) {belongs : HeapClass → Prop} (test : HeapClass → Bool)
    (decides : ∀ type, test type = true ↔ belongs type) :
    Whole past belongs (heap.objects.filter fun object => test object.type) := by
  constructor
  · exact kept.ascending.filter _
  · intro object
    rw [List.mem_filter, kept.live, decides]
  · intro object freed other member
    exact (kept.gone object freed).2 other (List.mem_of_mem_filter member)

end SyntheticHeap

/-- Zero stands for no bound, and a bound has 32 bits. -/
def cut (max : Nat) : Nat := if max = 0 then UInt32.size - 1 else min max (UInt32.size - 1)

theorem normalize_bound_cut (max : Nat) : ∃ bound, normalizeBound max = .ok bound ∧ bound.toNat = cut max := by
  have whole : unbounded.toNat = UInt32.size - 1 := by decide
  have size : UInt32.size = 4294967296 := rfl
  by_cases wide : max = 0 ∨ UInt32.size - 1 ≤ max
  · refine ⟨unbounded, ?_, ?_⟩
    · rw [normalizeBound, if_neg (by omega), if_pos (by omega)]
    · rcases wide with rfl | wide
      · rw [whole, cut, if_pos rfl]
      · rw [whole, cut, if_neg (by omega), Nat.min_eq_right wide]
  · refine ⟨max.toUInt32, ?_, ?_⟩
    · rw [normalizeBound, if_neg (by omega), if_neg (by omega), Int.toNat_natCast]
    · rw [cut, if_neg (by omega), Nat.min_eq_left (by omega)]
      exact UInt32.toNat_ofNat_of_lt' (by omega)

example : [0, 1, 4294967294, 4294967295, 4294967296].map cut =
    [4294967295, 1, 4294967294, 4294967295, 4294967295] := by
  decide

namespace Query

open SyntheticHeap (Alike Deed Whole operated)

/-- A list and a count, each put to some heap that is like the given one, with any bound. -/
structure Bounded (heap : SyntheticHeap) (lists : Int → Query SyntheticHeap (List HeapObject))
    (counts : Int → Query SyntheticHeap UInt32) (whole : List HeapObject) : Prop where
  listed : ∀ (max : Nat) session, Alike heap session.world →
    ∃ after, (lists max).perform session = (.ok (whole.take (cut max)), after) ∧ Alike heap after.world
  counted : ∀ (max : Nat) session, Alike heap session.world →
    ∃ count after, (counts max).perform session = (.ok count, after) ∧
      count.toNat = (whole.take (cut max)).length ∧ Alike heap after.world
  prefixes : ∀ smaller larger : Nat, cut smaller ≤ cut larger →
    ∀ first second, Alike heap first.world → Alike heap second.world →
      ∀ short long, ((lists smaller).perform first).1 = .ok short → ((lists larger).perform second).1 = .ok long →
        short <+: long

variable {heap : SyntheticHeap}

theorem bounded_of_answers {lists : Int → Query SyntheticHeap (List HeapObject)}
    {counts : Int → Query SyntheticHeap UInt32} {whole : List HeapObject}
    (listed : ∀ max bound, normalizeBound max = .ok bound → ∀ session, Alike heap session.world →
      ∃ after, (lists max).perform session = (.ok (whole.take bound.toNat), after) ∧ Alike heap after.world)
    (counted : ∀ max bound, normalizeBound max = .ok bound → ∀ session, Alike heap session.world →
      ∃ count after, (counts max).perform session = (.ok count, after) ∧
        count.toNat = (whole.take bound.toNat).length ∧ Alike heap after.world) :
    Bounded heap lists counts whole := by
  have cuts : ∀ (max : Nat) session, Alike heap session.world →
      ∃ after, (lists max).perform session = (.ok (whole.take (cut max)), after) ∧ Alike heap after.world := by
    intro max session alike
    obtain ⟨bound, normalized, value⟩ := normalize_bound_cut max
    rw [← value]
    exact listed max bound normalized session alike
  constructor
  case listed => exact cuts
  case counted =>
    intro max session alike
    obtain ⟨bound, normalized, value⟩ := normalize_bound_cut max
    rw [← value]
    exact counted max bound normalized session alike
  case prefixes =>
    intro smaller larger le first second alike same short long answered told
    obtain ⟨_, performed, _⟩ := cuts smaller first alike
    obtain ⟨_, again, _⟩ := cuts larger second same
    rw [performed] at answered
    rw [again] at told
    rw [← Except.ok.inj answered, ← Except.ok.inj told]
    exact List.take_prefix_take_left le

theorem any_bounded (heap : SyntheticHeap) (type : HeapClass) :
    Bounded heap (instancesOfAny SyntheticHeap.walker type) (countAny SyntheticHeap.walker type)
      (heap.below type) := by
  apply bounded_of_answers
  · intro max bound normalized session alike
    rw [← SyntheticHeap.any_eq_take]
    exact instances_of_any_performed normalized alike
  · intro max bound normalized session alike
    rw [← SyntheticHeap.any_eq_take]
    exact count_any_performed normalized alike

theorem exact_bounded (heap : SyntheticHeap) {type : HeapClass} (concrete : type.isConcrete = true) :
    Bounded heap (instancesOf SyntheticHeap.walker type) (countExact SyntheticHeap.walker type)
      (heap.objects.filter fun object => object.type.id = type.id) := by
  apply bounded_of_answers
  · intro max bound normalized session alike
    exact instances_of_performed normalized concrete alike
  · intro max bound normalized session alike
    exact count_exact_performed normalized concrete alike

theorem none_bounded (heap : SyntheticHeap) {type : HeapClass} (other : type.isConcrete = false) :
    Bounded heap (instancesOf SyntheticHeap.walker type) (countExact SyntheticHeap.walker type) [] := by
  apply bounded_of_answers
  · intro max bound normalized session alike
    rw [instancesOf, accept_bound normalized, other, List.take_nil]
    exact ⟨session, rfl, alike⟩
  · intro max bound normalized session alike
    rw [countExact, accept_bound normalized, other, List.take_nil]
    exact ⟨0, session, rfl, rfl, alike⟩

/-- The lists of a class, told by the record alone. Only a concrete class has instances of its own. -/
structure InOrder (past : List Deed) (heap : SyntheticHeap) (type : HeapClass) : Prop where
  exact : ∃ whole, Whole past (fun other => type.isConcrete = true ∧ other.id = type.id) whole ∧
    Bounded heap (instancesOf SyntheticHeap.walker type) (countExact SyntheticHeap.walker type) whole
  any : ∃ whole, Whole past (fun other => heap.supertypes.Below other.id type.id) whole ∧
    Bounded heap (instancesOfAny SyntheticHeap.walker type) (countAny SyntheticHeap.walker type) whole

theorem bounded_in_order (operations : List SyntheticHeap.Operation) (type : HeapClass) :
    InOrder (operated operations .new).1 (operated operations .new).2 type := by
  have kept : SyntheticHeap.Ordered (operated operations .new).1 (operated operations .new).2 :=
    SyntheticHeap.operated_keeps SyntheticHeap.Ordered SyntheticHeap.ordered_does [] SyntheticHeap.ordered_new operations
  constructor
  · cases concrete : type.isConcrete with
    | true =>
        refine ⟨_, SyntheticHeap.whole_filter kept (fun other => other.id = type.id) ?_, exact_bounded _ concrete⟩
        intro other
        simp
    | false =>
        refine ⟨[], ⟨.nil, ?_, nofun⟩, none_bounded _ concrete⟩
        intro object
        simp
  · refine ⟨_, SyntheticHeap.whole_filter kept (fun other => SyntheticHeap.isSubtype _ other type) ?_,
      any_bounded _ type⟩
    intro other
    exact SupertypeTable.is_subtype_iff _ _ _

end Query

end HeapCensus
