import HeapCensus.Proofs.Custody
import HeapCensus.Proofs.Latency
import HeapCensus.Proofs.NotedTags
import HeapCensus.Proofs.SharedScan
import Mathlib

set_option autoImplicit false

namespace HeapCensus

namespace Latency

structure Grown (amount : Nat) (before after : Latency) : Prop where
  capacity : after.capacity = before.capacity
  count : after.count = before.count + amount
  size : after.size = Nat.min before.capacity (before.size + amount)

theorem size_add (history : Latency) (sample : UInt64) :
    (history.add sample).size = Nat.min history.capacity (history.size + 1) := by
  have within := history.size_le_capacity
  unfold add
  by_cases room : history.size < history.capacity
  · rw [dif_pos room]
    exact (Nat.min_eq_right room).symm
  · rw [dif_neg room]
    have full : history.size = history.capacity := Nat.le_antisymm within (Nat.not_lt.mp room)
    exact full.trans (Nat.min_eq_left (full ▸ Nat.le_succ _)).symm

theorem min_add_min (capacity held more : Nat) :
    Nat.min capacity (Nat.min capacity held + more) = Nat.min capacity (held + more) := by
  change capacity ⊓ (capacity ⊓ held + more) = capacity ⊓ (held + more)
  omega

theorem grown_nothing (history : Latency) : Grown 0 history history :=
  ⟨rfl, rfl, (Nat.min_eq_right history.size_le_capacity).symm⟩

theorem grown_add {amount : Nat} {before after : Latency} (grown : Grown amount before after) (sample : UInt64) :
    Grown (amount + 1) before (after.add sample) := by
  refine ⟨(after.capacity_add sample).trans grown.capacity, ?_, ?_⟩
  · rw [count_add, grown.count, Nat.add_assoc]
  · rw [size_add, grown.capacity, grown.size]
    exact min_add_min before.capacity (before.size + amount) 1

end Latency

namespace Registry

def openScans (registry : Registry) : Multiset (Tag × Bool) :=
  registry.scans.map fun scan => (scan.1, scan.2.isComplete)

theorem open_none {registry : Registry} : registry.openScans = 0 ↔ registry.scans = [] := by
  rw [openScans, Multiset.coe_eq_zero, List.map_eq_nil_iff]

variable {registry : Registry} {tag : Tag} {entry : ScanEntry}

theorem entry_of_mem (member : (tag, entry) ∈ registry.scans) : registry.entryAt tag = some entry := by
  cases held : registry.entryAt tag with
  | none => exact absurd rfl ((entry_eq_none_iff registry tag).mp held _ member)
  | some other =>
      have same := List.inj_on_of_nodup_map registry.distinct (mem_of_entry held) member rfl
      rw [(Prod.mk.inj same).2]

theorem entry_of_open {complete : Bool} (opened : (tag, complete) ∈ registry.openScans) :
    ∃ entry, registry.entryAt tag = some entry ∧ entry.isComplete = complete := by
  obtain ⟨scan, member, same⟩ := List.mem_map.mp (Multiset.mem_coe.mp opened)
  obtain ⟨rfl, rfl⟩ := Prod.mk.inj same
  exact ⟨scan.2, entry_of_mem member, rfl⟩

theorem scans_split (held : registry.entryAt tag = some entry) :
    registry.scans.Perm ((tag, entry) :: (registry.remove tag).scans) := by
  have member := mem_of_entry held
  have whole : registry.scans.Nodup := .of_map _ registry.distinct
  have absent : (tag, entry) ∉ (registry.remove tag).scans := fun kept => by
    simpa using (List.mem_filter.mp kept).2
  refine (List.perm_ext_iff_of_nodup whole (List.nodup_cons.mpr ⟨absent, whole.filter _⟩)).mpr fun scan => ?_
  rw [List.mem_cons, remove, List.mem_filter, decide_eq_true_eq]
  by_cases same : scan.1 = tag
  · have only : scan ∈ registry.scans ↔ scan = (tag, entry) :=
      ⟨fun present => List.inj_on_of_nodup_map registry.distinct present member same, fun this => this ▸ member⟩
    simp [same, only]
  · have other : scan ≠ (tag, entry) := fun equal => same (congrArg Prod.fst equal)
    simp [same, other]

theorem open_split (held : registry.entryAt tag = some entry) :
    registry.openScans = (registry.remove tag).openScans + {(tag, entry.isComplete)} := by
  have parts := (scans_split held).map fun scan : Tag × ScanEntry => (scan.1, scan.2.isComplete)
  rw [openScans, Multiset.coe_eq_coe.mpr parts, List.map_cons, ← Multiset.cons_coe, ← Multiset.singleton_add, add_comm]
  rfl

theorem remove_replaced (registry : Registry) (tag : Tag) (entry : ScanEntry) :
    ((registry.replace tag entry).remove tag).scans = (registry.remove tag).scans := by
  change List.filter _ (List.map _ registry.scans) = List.filter _ registry.scans
  induction registry.scans with
  | nil => rfl
  | cons scan scans ih => by_cases same : scan.1 = tag <;> simpa [same] using ih

theorem open_replaced (held : registry.entryAt tag = some entry) (next : ScanEntry) :
    (registry.replace tag next).openScans = (registry.remove tag).openScans + {(tag, next.isComplete)} := by
  have replaced : (registry.replace tag next).entryAt tag = some next := by
    rw [entry_replace, if_pos rfl, held]
    rfl
  rw [open_split replaced, openScans, remove_replaced]
  rfl

theorem open_begun (free : registry.entryAt registry.nextTag = none) (target : HeapClass) (now : Nat) :
    (registry.begin target now).2.openScans = registry.openScans + {(registry.nextTag, false)} := by
  have appended : (registry.begin target now).2.scans =
      registry.scans ++ [(registry.nextTag, ScanEntry.fresh target now)] := by
    rw [← remove_absent registry registry.nextTag free]
    rfl
  rw [openScans, appended, List.map_append, ← Multiset.coe_add]
  rfl

abbrev Burden := Nat × Multiset (Tag × Bool) × Nat

def age (registry : Registry) (tag : Tag) : Nat := (registry.tags.last.value - tag.value).toNat

/-- The registry has the open scans that are carried, and no tag comes round again while they are open. -/
structure Running (start : Latency) (registry : Registry) (own : Burden) : Prop where
  room : own.1 < UInt64.size
  scans : registry.openScans = own.2.1
  ages : ∀ scan ∈ own.2.1, registry.age scan.1 + own.1 < UInt64.size
  latency : Latency.Grown own.2.2 start registry.latency

variable {start : Latency} {rest : Burden} {needed timed : Nat} {complete : Bool}

theorem age_last (registry : Registry) : registry.age registry.tags.last = 0 := by
  rw [age, UInt64.sub_self]
  rfl

theorem age_next (registry : Registry) : registry.age registry.nextTag = UInt64.size - 1 := by
  have word : registry.tags.last.value - registry.nextTag.value = -1 := by
    simp only [nextTag, TagCounter.next]
    grind
  rw [age, word]
  rfl

theorem age_begun (target : HeapClass) (now : Nat) {tag : Tag} (younger : registry.age tag + 1 < UInt64.size) :
    (registry.begin target now).2.age tag = registry.age tag + 1 := by
  have word : (registry.begin target now).2.tags.last.value - tag.value =
      registry.tags.last.value - tag.value + 1 := by
    simp only [begin, TagCounter.next]
    grind
  rw [age, word, UInt64.toNat_add]
  exact Nat.mod_eq_of_lt younger

theorem running_begin (running : Running start registry (rest + (1, 0, 0))) (target : HeapClass) (now : Nat) :
    Running start (registry.begin target now).2 (rest + (0, {(registry.nextTag, false)}, 0)) := by
  have room : rest.1 + 1 < UInt64.size := running.room
  have scans : registry.openScans = rest.2.1 := running.scans.trans (add_zero _)
  have ages : ∀ scan ∈ rest.2.1, registry.age scan.1 + (rest.1 + 1) < UInt64.size :=
    fun scan member => running.ages scan (Multiset.mem_add.mpr (.inl member))
  have free : registry.entryAt registry.nextTag = none := by
    cases held : registry.entryAt registry.nextTag with
    | none => rfl
    | some entry =>
        have opened : (registry.nextTag, entry.isComplete) ∈ registry.openScans :=
          Multiset.mem_coe.mpr (List.mem_map_of_mem (mem_of_entry held))
        have young := ages _ (scans ▸ opened)
        rw [age_next] at young
        omega
  constructor
  case room => exact Nat.lt_of_succ_lt room
  case scans => rw [open_begun free, scans]; rfl
  case ages =>
    intro scan member
    rcases Multiset.mem_add.mp member with older | begun
    · have young := ages scan older
      rw [age_begun target now (by omega)]
      change _ + (rest.1 + 0) < _
      omega
    · have newest : (registry.begin target now).2.age registry.nextTag = 0 := age_last _
      rw [Multiset.mem_singleton.mp begun, newest, Nat.zero_add]
      exact Nat.lt_of_succ_lt room
  case latency => exact running.latency

theorem entry_of_running (running : Running start registry (rest + (needed, {(tag, complete)}, timed))) :
    ∃ entry, registry.entryAt tag = some entry ∧ entry.isComplete = complete := by
  apply entry_of_open
  rw [running.scans]
  exact Multiset.mem_add.mpr (.inr (Multiset.mem_singleton_self _))

theorem running_change {after : Registry} {scans : Multiset (Tag × Bool)} (more : Nat)
    (running : Running start registry (rest + (needed, {(tag, complete)}, timed))) (tags : after.tags = registry.tags)
    (opened : after.openScans = (registry.remove tag).openScans + scans) (named : ∀ scan ∈ scans, scan.1 = tag)
    (latency : Latency.Grown (rest.2.2 + timed + more) start after.latency) :
    Running start after (rest + (needed, scans, timed + more)) := by
  obtain ⟨entry, held, rfl⟩ := entry_of_running running
  have others : (registry.remove tag).openScans = rest.2.1 := by
    have whole := running.scans
    rw [open_split held] at whole
    exact add_right_cancel whole
  constructor
  case room => exact running.room
  case scans => rw [opened, others]; rfl
  case ages =>
    intro scan member
    rw [age, tags]
    rcases Multiset.mem_add.mp member with older | mine
    · exact running.ages scan (Multiset.mem_add.mpr (.inl older))
    · rw [named scan mine]
      exact running.ages (tag, _) (Multiset.mem_add.mpr (.inr (Multiset.mem_singleton_self _)))
  case latency =>
    rw [Nat.add_assoc] at latency
    exact latency

theorem running_visit (running : Running start registry (rest + (needed, {(tag, false)}, timed)))
    (object : HeapObject) :
    Running start (registry.visit tag (some object)) (rest + (needed, {(tag, false)}, timed)) := by
  obtain ⟨entry, held, unfinished⟩ := entry_of_running running
  have counted : (entry.count object).isComplete = false := unfinished
  rw [visit_open held unfinished]
  refine running_change 0 running rfl ?_ (fun scan mine => ?_) running.latency
  · rw [open_replaced held, counted]
  · rw [Multiset.mem_singleton.mp mine]

theorem running_complete (running : Running start registry (rest + (needed, {(tag, false)}, timed))) (now : Nat) :
    Running start (registry.complete tag now) (rest + (needed, {(tag, true)}, timed + 1)) := by
  obtain ⟨entry, held, unfinished⟩ := entry_of_running running
  rw [complete_open held unfinished]
  refine running_change 1 running rfl ?_ (fun scan mine => ?_) (Latency.grown_add running.latency _)
  · refine (open_replaced held (entry.completed now)).trans ?_
    rw [entry.completed_complete now]
  · rw [Multiset.mem_singleton.mp mine]

theorem running_remove (running : Running start registry (rest + (needed, {(tag, complete)}, timed))) :
    Running start (registry.remove tag) (rest + (needed, 0, timed)) :=
  running_change 0 running rfl (add_zero _).symm (fun _ none => absurd none (Multiset.notMem_zero _))
    running.latency

end Registry

namespace Query

open Registry (Burden Running)
open Activity (Carries)

def scanning (start : Latency) (fails skips : Bool) : Custody (Session SyntheticHeap) Burden :=
  Custody.accounting
    (fun session => session.world.failScans = fails ∧ session.world.skipCompletion = skips)
    fun session own => Running start session.census.registry own

variable {α β : Type} {start : Latency} {fails skips complete : Bool} {tag : Tag} {needed timed : Nat}

theorem scanning_unmoved (session : Session SyntheticHeap) (own : Burden) :
    (scanning start fails skips).Allows session own session own :=
  fun kept => ⟨kept, fun _ running => running⟩

theorem scanning_registry (session : Session SyntheticHeap) {registry : Registry} {own next : Burden}
    (moved : ∀ rest, Running start session.census.registry (rest + own) → Running start registry (rest + next)) :
    (scanning start fails skips).Allows session own (session.setRegistry registry) next :=
  fun kept => ⟨kept, moved⟩

theorem carries_call {event : ScanEvent} {resume : SinkReply → Dialogue SyntheticHeap ScanEvent SinkReply α}
    {post : Burden → α → Prop} {old : Burden} (new : Burden)
    (moved : ∀ (registry : Registry) now rest, Running start registry (rest + old) →
      Running start (registry.receive now event) (rest + new))
    (after : Carries (scanning start fails skips) post
      (Activity.serve Session.world Session.setWorld hear (resume .taken)) new) :
    Carries (scanning start fails skips) post
      (Activity.serve Session.world Session.setWorld hear (.call event resume)) old := by
  change Carries _ post (Dialogue.bind (Activity.step (hear event)) fun reply =>
    Activity.serve Session.world Session.setWorld hear (resume reply)) old
  refine Activity.carries_bind (fun own reply => own = new ∧ reply = .taken) ?_ ?_
  · rintro _ _ ⟨rfl, rfl⟩
    exact after
  · refine Activity.carries_step fun session => ⟨new, ?_, rfl, ?_⟩
    · rw [hear_eq]
      exact scanning_registry session fun rest => moved session.census.registry session.census.clock rest
    · rw [hear_eq]

theorem carries_tells {dialogue : Dialogue SyntheticHeap ScanEvent SinkReply α} {events : List ScanEvent}
    {result : α} (told : Tells dialogue events result) (lawful : Lawful tag events) :
    Carries (scanning start fails skips)
      (fun own _ => ∃ complete, own = (0, {(tag, complete)}, completions tag events))
      (Activity.serve Session.world Session.setWorld hear dialogue) (0, {(tag, false)}, 0) := by
  induction told with
  | stop result => exact ⟨false, rfl⟩
  | call event resume events result told ih =>
      cases event with
      | fault named message => exact lawful.elim
      | completed named =>
          obtain ⟨rfl, rfl⟩ := lawful
          have once : completions named [.completed named] = 1 := by simp [completions]
          refine carries_call (0, {(named, true)}, 1)
            (fun _ now _ running => Registry.running_complete running now) ?_
          rw [tells_nothing told, once]
          exact ⟨true, rfl⟩
      | visited named object =>
          obtain ⟨rfl, others⟩ := lawful
          have silent : completions named (.visited named object :: events) = completions named events := by
            simp [completions]
          rw [silent]
          cases object with
          | none => exact carries_call _ (fun _ _ _ running => running) (ih others)
          | some object =>
              exact carries_call _ (fun _ _ _ running => Registry.running_visit running object) (ih others)

def latenciesOf (fails skips : Bool) : Nat := if fails || skips then 0 else 1

theorem completions_scan (heap : SyntheticHeap) (tag : Tag) (order : List HeapObject) :
    completions tag (heap.scanEvents tag order) = latenciesOf heap.failScans heap.skipCompletion := by
  have silent : ∀ (objects : List (Option HeapObject)) events,
      completions tag (objects.map (.visited tag) ++ events) = completions tag events := by
    intro objects events
    simp [completions]
  rw [SyntheticHeap.scan_events_eq, silent, SyntheticHeap.ending, latenciesOf]
  split <;> simp [completions]

theorem carries_scan (type : HeapClass) (tag : Tag) (bound : UInt32) :
    Carries (scanning start fails skips)
      (fun own _ => ∃ complete, own = (0, {(tag, complete)}, latenciesOf fails skips))
      (Activity.serve Session.world Session.setWorld hear (SyntheticHeap.walker.scan type tag bound).run)
      (0, {(tag, false)}, 0) := by
  -- The scan reads the heap in its first step; from then on its reports are settled.
  rintro session ⟨rfl, rfl⟩
  obtain ⟨order, _, told⟩ := SyntheticHeap.reports_tells session.world type tag bound
  have lawful : Lawful tag (session.world.scanEvents tag order) := by
    rw [SyntheticHeap.scan_events_eq]
    exact lawful_append tag _ _ (SyntheticHeap.ending_lawful session.world tag)
  rw [← completions_scan session.world tag order]
  exact ⟨⟨rfl, rfl⟩, _, fun _ running => running, carries_tells told lawful⟩

theorem bears_registered {f : Registry → α × Registry} {next : α → Query SyntheticHeap β} {post : Burden → Prop}
    {own : Burden}
    (moved : ∀ registry, ∃ later,
      (∀ rest, Running start registry (rest + own) → Running start (f registry).2 (rest + later)) ∧
        Bears (scanning start fails skips) post (next (f registry).1) later) :
    Bears (scanning start fails skips) post (register f >>= next) own := by
  apply carries_stepped
  intro session _
  obtain ⟨later, running, onwards⟩ := moved session.census.registry
  exact ⟨later, scanning_registry session running, onwards⟩

theorem bears_abandon (tag : Tag) (reason : String) :
    Bears (scanning start fails skips) (· = (0, 0, timed)) (abandon tag reason) (0, {(tag, complete)}, timed) := by
  refine bears_registered fun registry => ⟨(0, 0, timed), fun rest running => ?_, ?_⟩
  · obtain ⟨entry, held, _⟩ := Registry.entry_of_running running
    rw [Registry.abandon_held held]
    exact Registry.running_remove running
  · cases (registry.abandon tag reason).1 <;> rfl

theorem bears_conclude (tag : Tag) (outcome : Outcome WalkerError Unit) :
    Bears (scanning start fails skips) (· = (0, 0, timed)) (conclude tag outcome) (0, {(tag, complete)}, timed) := by
  cases outcome with
  | error failure => cases failure <;> exact bears_abandon tag _
  | ok done =>
      refine bears_registered fun registry => ?_
      cases held : registry.entryAt tag with
      | none =>
          refine ⟨(0, 0, timed), fun rest running => ?_, ?_⟩
          · obtain ⟨entry, found, _⟩ := Registry.entry_of_running running
            cases held.symm.trans found
          · rw [Registry.finish_absent held]
            rfl
      | some entry =>
          cases closed : entry.isComplete with
          | true =>
              rw [Registry.finish_closed held closed]
              exact ⟨(0, 0, timed), fun rest running => Registry.running_remove running, rfl⟩
          | false =>
              rw [Registry.finish_open held closed]
              exact ⟨_, fun rest running => running, bears_abandon tag _⟩

theorem bears_cardinality (type : HeapClass) {max : Int} (nonneg : 0 ≤ max) :
    Bears (scanning start fails skips) (· = (0, 0, latenciesOf fails skips))
      (cardinality SyntheticHeap.walker type max) (1, 0, 0) := by
  -- A scan takes its tag, opens itself in the registry and is gone from there in the end.
  obtain ⟨bound, given⟩ := normalize_bound_ok nonneg
  rw [cardinality_eq, given]
  apply carries_stepped
  intro session _
  refine ⟨_, scanning_unmoved session _, ?_⟩
  refine bears_registered fun registry => ⟨_, fun rest running => Registry.running_begin running type _, ?_⟩
  refine bears_lifted (carries_scan type _ bound) ?_
  rintro _ outcome ⟨complete, rfl⟩
  exact bears_conclude _ outcome

theorem carried_scans (types : List HeapClass) :
    Activity.Carried (scanning start fails skips) (fun own _ => own = (0, 0, latenciesOf fails skips))
      (types.map fun type => (cardinality SyntheticHeap.walker type 0).run) (types.map fun _ => (1, 0, 0)) := by
  rw [Activity.Carried, List.forall₂_map_left_iff, List.forall₂_map_right_iff, List.forall₂_same]
  exact fun type _ => bears_cardinality type (Int.le_refl 0)

theorem bears_scan_all (types : List HeapClass) :
    Bears (scanning start fails skips) (· = (0, 0, types.length * latenciesOf fails skips))
      (scanAll SyntheticHeap.walker types) (types.length, 0, 0) := by
  have needed : (types.map fun _ => ((1, 0, 0) : Burden)).sum = (types.length, 0, 0) := by
    simp [List.map_const', List.sum_replicate]
  apply carries_stepped
  intro session _
  refine ⟨_, scanning_unmoved session _, ?_⟩
  rw [← needed]
  apply bears_lifted (Activity.carries_interleave session.census.turns (carried_scans types))
  rintro _ outcomes ⟨ends, amount, rfl, _, done⟩
  have same : ∀ own ∈ ends.map Prod.fst, own = (0, 0, latenciesOf fails skips) := by
    intro own member
    obtain ⟨ended, held, rfl⟩ := List.mem_map.mp member
    exact done ended held
  change (ends.map Prod.fst).sum = _
  rw [List.sum_eq_card_nsmul _ _ same, List.length_map, amount, List.length_map]
  simp

theorem bears_rank_found (name : String) (rows : Nat) (withoutPrimitives : Bool) (started : Nat)
    (types : List HeapClass) :
    Bears (scanning start fails skips) (· = (0, 0, types.length * latenciesOf fails skips))
      (rankFound SyntheticHeap.walker name rows withoutPrimitives started types) (types.length, 0, 0) := by
  apply bears_bind (bears_scan_all types)
  · rintro own reports rfl
    apply bears_free
    apply costs_nothing (costs_given _ rfl)
    intro entries
    exact costs_value (costs_step scanning_unmoved)
  · exact fun own reached => reached

end Query

end HeapCensus
