import HeapCensus.Registry
import Mathlib

set_option autoImplicit false

namespace HeapCensus

namespace ScanEntry

def visited (entry : ScanEntry) (object : HeapObject) : ScanEntry :=
  if entry.isComplete then entry else entry.count object

def completed (entry : ScanEntry) (now : Nat) : ScanEntry :=
  if entry.isComplete then entry else { entry with recorded := some (now - entry.started) }

theorem completed_complete (entry : ScanEntry) (now : Nat) :
    (entry.completed now).isComplete = true := by
  unfold completed
  split
  · assumption
  · rfl

theorem completed_target (entry : ScanEntry) (now : Nat) :
    (entry.completed now).target = entry.target := by
  unfold completed
  split <;> rfl

theorem completed_tally (entry : ScanEntry) (now : Nat) :
    (entry.completed now).tally = entry.tally := by
  unfold completed
  split <;> rfl

theorem completed_faults (entry : ScanEntry) (now : Nat) :
    (entry.completed now).faults = entry.faults := by
  unfold completed
  split <;> rfl

end ScanEntry

namespace Registry

def nextTag (registry : Registry) : Tag := registry.tags.next.1

def total (measure : ScanEntry → Nat) (registry : Registry) : Nat :=
  (registry.scans.map fun scan => measure scan.2).sum

theorem total_one (registry : Registry) : registry.total (fun _ => 1) = registry.inFlight := by
  simp [total, inFlight, List.map_const']

theorem mem_of_entry {registry : Registry} {tag : Tag} {entry : ScanEntry}
    (held : registry.entryAt tag = some entry) : (tag, entry) ∈ registry.scans := by
  obtain ⟨scan, found, same⟩ := Option.map_eq_some_iff.mp held
  have named : scan.1 = tag := by simpa using List.find?_some found
  have whole : (tag, entry) = scan := by rw [← named, ← same]
  rw [whole]
  exact List.mem_of_find?_eq_some found

theorem entry_eq_none_iff (registry : Registry) (tag : Tag) :
    registry.entryAt tag = none ↔ ∀ scan ∈ registry.scans, scan.1 ≠ tag := by
  simp [entryAt]

theorem entry_replace (registry : Registry) (tag other : Tag) (entry : ScanEntry) :
    (registry.replace tag entry).entryAt other =
      if other = tag then (registry.entryAt tag).map fun _ => entry else registry.entryAt other := by
  simp only [entryAt, replace, List.find?_map, Option.map_map]
  have keys : ((fun scan : Tag × ScanEntry => decide (scan.1 = other)) ∘
      fun scan : Tag × ScanEntry => if scan.1 = tag then (tag, entry) else scan) =
        fun scan => decide (scan.1 = other) := by
    funext scan
    by_cases same : scan.1 = tag <;> simp [same]
  rw [keys]
  cases found : registry.scans.find? fun scan => scan.1 = other with
  | none =>
      by_cases same : other = tag
      · subst same
        simp [found]
      · simp [same]
  | some scan =>
      have named : scan.1 = other := by simpa using List.find?_some found
      by_cases same : other = tag
      · subst same
        simp [found, named]
      · have differs : scan.1 ≠ tag := named ▸ same
        simp [same, differs]

theorem entry_remove (registry : Registry) (tag other : Tag) :
    (registry.remove tag).entryAt other = if other = tag then none else registry.entryAt other := by
  by_cases same : other = tag
  · rw [if_pos same, entry_eq_none_iff]
    intro scan member
    have kept := (List.mem_filter.mp member).2
    simpa [same] using kept
  · rw [if_neg same]
    simp only [entryAt, remove, List.find?_filter]
    congr 2
    funext scan
    by_cases named : scan.1 = other
    · simp [named, same]
    · simp [named]

theorem open_before_replace {registry : Registry} {tag : Tag} {old : ScanEntry}
    (held : registry.entryAt tag = some old) (entry : ScanEntry) (other : Tag)
    (opened : (registry.replace tag entry).entryAt other ≠ none) : registry.entryAt other ≠ none := by
  rw [entry_replace] at opened
  by_cases same : other = tag
  · simp [same, held]
  · simpa [same] using opened

theorem open_before_remove (registry : Registry) (tag other : Tag)
    (opened : (registry.remove tag).entryAt other ≠ none) : registry.entryAt other ≠ none := by
  rw [entry_remove] at opened
  by_cases same : other = tag
  · simp [same] at opened
  · simpa [same] using opened

theorem entry_begin (registry : Registry) (target : HeapClass) (now : Nat) (other : Tag) :
    (registry.begin target now).2.entryAt other =
      if other = registry.nextTag then some (ScanEntry.fresh target now)
      else registry.entryAt other := by
  have cleared := entry_remove registry registry.nextTag other
  have appended : (registry.begin target now).2.scans =
      (registry.remove registry.nextTag).scans ++
        [(registry.nextTag, ScanEntry.fresh target now)] := rfl
  rw [entryAt, appended, List.find?_append]
  by_cases same : other = registry.nextTag
  · rw [if_pos same] at cleared ⊢
    rw [Option.map_eq_none_iff.mp cleared]
    simp [same]
  · have differs : registry.nextTag ≠ other := fun equal => same equal.symm
    rw [if_neg same] at cleared ⊢
    simpa [entryAt, differs] using cleared

theorem sum_split (measure : ScanEntry → Nat) (scans : List (Tag × ScanEntry)) (tag : Tag)
    (old : ScanEntry) (distinct : (scans.map Prod.fst).Nodup) (member : (tag, old) ∈ scans) :
    ((scans.filter fun scan => scan.1 ≠ tag).map fun scan => measure scan.2).sum + measure old =
      (scans.map fun scan => measure scan.2).sum := by
  induction scans with
  | nil => simp at member
  | cons scan scans ih =>
      obtain ⟨absent, rest⟩ := List.nodup_cons.mp distinct
      rcases List.mem_cons.mp member with same | later
      · have untouched : scans.filter (fun scan => scan.1 ≠ tag) = scans := by
          refine List.filter_eq_self.mpr fun other present => ?_
          have differs : other.1 ≠ tag := by
            intro equal
            exact absent (List.mem_map.mpr ⟨other, present, by rw [equal, ← same]⟩)
          simpa using differs
        rw [← same, List.filter_cons_of_neg (by simp), untouched, List.map_cons, List.sum_cons]
        exact Nat.add_comm _ _
      · have other : scan.1 ≠ tag := by
          intro equal
          exact absent (List.mem_map.mpr ⟨(tag, old), later, equal.symm⟩)
        have smaller := ih rest later
        rw [List.filter_cons_of_pos (by simpa using other)]
        simp only [List.map_cons, List.sum_cons]
        omega

theorem total_remove (measure : ScanEntry → Nat) (registry : Registry) (tag : Tag) (old : ScanEntry)
    (held : registry.entryAt tag = some old) :
    (registry.remove tag).total measure + measure old = registry.total measure :=
  sum_split measure registry.scans tag old registry.distinct (mem_of_entry held)

theorem sum_replaced (measure : ScanEntry → Nat) (scans : List (Tag × ScanEntry)) (tag : Tag)
    (old entry : ScanEntry) (distinct : (scans.map Prod.fst).Nodup) (member : (tag, old) ∈ scans) :
    ((scans.map fun scan => if scan.1 = tag then (tag, entry) else scan).map
        fun scan => measure scan.2).sum =
      ((scans.filter fun scan => scan.1 ≠ tag).map fun scan => measure scan.2).sum +
        measure entry := by
  have present : (tag, entry) ∈ scans.map fun scan => if scan.1 = tag then (tag, entry) else scan :=
    List.mem_map.mpr ⟨(tag, old), member, by simp⟩
  rw [← sum_split measure _ tag entry ((tags_replaced scans tag entry).symm ▸ distinct) present]
  congr 3
  rw [List.filter_map]
  have kept : ((fun scan : Tag × ScanEntry => decide (scan.1 ≠ tag)) ∘
      fun scan : Tag × ScanEntry => if scan.1 = tag then (tag, entry) else scan) =
        fun scan => decide (scan.1 ≠ tag) := by
    funext scan
    by_cases same : scan.1 = tag <;> simp [same]
  have untouched : ∀ scan ∈ scans.filter fun scan => scan.1 ≠ tag,
      (if scan.1 = tag then (tag, entry) else scan) = id scan := by
    intro scan other
    have differs : scan.1 ≠ tag := by simpa using (List.mem_filter.mp other).2
    simp [differs]
  rw [kept]
  exact (List.map_congr_left untouched).trans (List.map_id _)

theorem total_replace (measure : ScanEntry → Nat) (registry : Registry) (tag : Tag)
    (old entry : ScanEntry) (held : registry.entryAt tag = some old) :
    (registry.replace tag entry).total measure + measure old =
      registry.total measure + measure entry := by
  have removed := total_remove measure registry tag old held
  have replaced := sum_replaced measure registry.scans tag old entry registry.distinct
    (mem_of_entry held)
  simp only [total, replace, remove] at removed replaced ⊢
  omega

theorem remove_absent (registry : Registry) (tag : Tag) (absent : registry.entryAt tag = none) :
    (registry.remove tag).scans = registry.scans := by
  refine List.filter_eq_self.mpr fun scan member => ?_
  simpa using (entry_eq_none_iff registry tag).mp absent scan member

theorem total_begin (measure : ScanEntry → Nat) (registry : Registry) (target : HeapClass)
    (now : Nat) :
    (registry.begin target now).2.total measure +
        ((registry.entryAt registry.nextTag).map measure).getD 0 =
      registry.total measure + measure (ScanEntry.fresh target now) := by
  -- What `begin` displaces is there only if the tag that comes next is taken already.
  have appended : (registry.begin target now).2.total measure =
      (registry.remove registry.nextTag).total measure + measure (ScanEntry.fresh target now) := by
    simp [total, begin, nextTag]
  rw [appended]
  cases displaced : registry.entryAt registry.nextTag with
  | none =>
      have same : (registry.remove registry.nextTag).total measure = registry.total measure := by
        rw [total, remove_absent registry registry.nextTag displaced, total]
      rw [same]
      rfl
  | some old =>
      have removed := total_remove measure registry registry.nextTag old displaced
      simp only [Option.map_some, Option.getD_some]
      omega

theorem in_flight_begin (registry : Registry) (target : HeapClass) (now : Nat)
    (free : registry.entryAt registry.nextTag = none) :
    (registry.begin target now).2.inFlight = registry.inFlight + 1 := by
  have begun := total_begin (fun _ => 1) registry target now
  rw [free, total_one, total_one] at begun
  exact begun

theorem in_flight_replace (registry : Registry) (tag : Tag) (entry : ScanEntry) :
    (registry.replace tag entry).inFlight = registry.inFlight :=
  List.length_map _

theorem in_flight_remove {registry : Registry} {tag : Tag} {entry : ScanEntry}
    (held : registry.entryAt tag = some entry) :
    (registry.remove tag).inFlight + 1 = registry.inFlight := by
  have removed := total_remove (fun _ => 1) registry tag entry held
  rw [total_one, total_one] at removed
  exact removed

@[simp]
theorem entry_stray (registry : Registry) (tag : Tag) : registry.stray.entryAt tag = registry.entryAt tag :=
  rfl

theorem visit_absent {registry : Registry} {tag : Tag} (absent : registry.entryAt tag = none)
    (object : HeapObject) : registry.visit tag (some object) = registry.stray := by
  simp [visit, absent]

theorem visit_closed {registry : Registry} {tag : Tag} {entry : ScanEntry}
    (held : registry.entryAt tag = some entry) (closed : entry.isComplete = true)
    (object : HeapObject) : registry.visit tag (some object) = registry.stray := by
  simp [visit, held, closed]

theorem visit_open {registry : Registry} {tag : Tag} {entry : ScanEntry}
    (held : registry.entryAt tag = some entry) (unfinished : entry.isComplete = false)
    (object : HeapObject) :
    registry.visit tag (some object) = registry.replace tag (entry.count object) := by
  simp [visit, held, unfinished]

theorem complete_absent {registry : Registry} {tag : Tag} (absent : registry.entryAt tag = none)
    (now : Nat) : registry.complete tag now = registry.stray := by
  simp [complete, absent]

theorem complete_closed {registry : Registry} {tag : Tag} {entry : ScanEntry}
    (held : registry.entryAt tag = some entry) (closed : entry.isComplete = true) (now : Nat) :
    registry.complete tag now = registry := by
  simp [complete, held, closed]

theorem complete_open {registry : Registry} {tag : Tag} {entry : ScanEntry}
    (held : registry.entryAt tag = some entry) (unfinished : entry.isComplete = false) (now : Nat) :
    registry.complete tag now =
      { registry.replace tag (entry.completed now) with
        latency := registry.latency.addElapsed (now - entry.started) } := by
  simp [complete, held, unfinished, ScanEntry.completed]

theorem fault_absent {registry : Registry} {tag : Tag} (absent : registry.entryAt tag = none)
    (message : String) : registry.fault tag message = registry.stray := by
  simp [fault, absent]

theorem fault_held {registry : Registry} {tag : Tag} {entry : ScanEntry}
    (held : registry.entryAt tag = some entry) (message : String) :
    registry.fault tag message = registry.replace tag (entry.addFault message) := by
  simp [fault, held]

theorem finish_absent {registry : Registry} {tag : Tag} (absent : registry.entryAt tag = none) :
    registry.finish tag = (.error (.unknownTag tag), registry) := by
  simp [finish, absent]

theorem finish_open {registry : Registry} {tag : Tag} {entry : ScanEntry}
    (held : registry.entryAt tag = some entry) (unfinished : entry.isComplete = false) :
    registry.finish tag = (.error (.notComplete tag), registry) := by
  simp [finish, held, unfinished]

theorem finish_closed {registry : Registry} {tag : Tag} {entry : ScanEntry}
    (held : registry.entryAt tag = some entry) (closed : entry.isComplete = true) :
    registry.finish tag = (.ok (entry.report tag), registry.remove tag) := by
  simp [finish, held, closed]

theorem abandon_absent {registry : Registry} {tag : Tag} (absent : registry.entryAt tag = none)
    (reason : String) : registry.abandon tag reason = (none, registry) := by
  simp [abandon, absent]

theorem abandon_held {registry : Registry} {tag : Tag} {entry : ScanEntry}
    (held : registry.entryAt tag = some entry) (reason : String) :
    registry.abandon tag reason =
      (some ((entry.addFault reason).report tag), registry.remove tag) := by
  simp [abandon, held]

theorem entry_fixed {registry : Registry} {tag : Tag} {change : ScanEntry → ScanEntry}
    (fixed : (registry.entryAt tag).map change = registry.entryAt tag) (other : Tag) :
    registry.entryAt other =
      if other = tag then (registry.entryAt other).map change else registry.entryAt other := by
  by_cases same : other = tag
  · subst same
    simp [fixed]
  · simp [same]

theorem entry_replaced {registry : Registry} {tag : Tag} {entry : ScanEntry}
    (held : registry.entryAt tag = some entry) (change : ScanEntry → ScanEntry) (other : Tag) :
    (registry.replace tag (change entry)).entryAt other =
      if other = tag then (registry.entryAt other).map change else registry.entryAt other := by
  rw [entry_replace]
  by_cases same : other = tag
  · simp [same, held]
  · simp [same]

theorem entry_visit (registry : Registry) (tag other : Tag) (object : HeapObject) :
    (registry.visit tag (some object)).entryAt other =
      if other = tag then (registry.entryAt other).map (·.visited object)
      else registry.entryAt other := by
  cases held : registry.entryAt tag with
  | none =>
      rw [visit_absent held, entry_stray]
      apply entry_fixed
      rw [held]
      rfl
  | some entry =>
      cases closed : entry.isComplete with
      | true =>
          rw [visit_closed held closed, entry_stray]
          apply entry_fixed
          simp [held, ScanEntry.visited, closed]
      | false =>
          have counted : entry.count object = entry.visited object := by
            simp [ScanEntry.visited, closed]
          rw [visit_open held closed, counted]
          exact entry_replaced held (·.visited object) other

theorem entry_complete (registry : Registry) (tag other : Tag) (now : Nat) :
    (registry.complete tag now).entryAt other =
      if other = tag then (registry.entryAt other).map (·.completed now)
      else registry.entryAt other := by
  cases held : registry.entryAt tag with
  | none =>
      rw [complete_absent held, entry_stray]
      apply entry_fixed
      rw [held]
      rfl
  | some entry =>
      cases closed : entry.isComplete with
      | true =>
          rw [complete_closed held closed]
          apply entry_fixed
          simp [held, ScanEntry.completed, closed]
      | false =>
          rw [complete_open held closed]
          exact entry_replaced held (·.completed now) other

theorem entry_fault (registry : Registry) (tag other : Tag) (message : String) :
    (registry.fault tag message).entryAt other =
      if other = tag then (registry.entryAt other).map (·.addFault message)
      else registry.entryAt other := by
  cases held : registry.entryAt tag with
  | none =>
      rw [fault_absent held, entry_stray]
      apply entry_fixed
      rw [held]
      rfl
  | some entry =>
      rw [fault_held held]
      exact entry_replaced held (·.addFault message) other

/-- So many tags were issued, and every open scan has one of them. -/
structure Issued (amount : Nat) (registry : Registry) : Prop where
  last : registry.tags.last.value.toNat = amount
  positive : ∀ tag, registry.entryAt tag ≠ none → 0 < tag.value.toNat
  bounded : ∀ tag, registry.entryAt tag ≠ none → tag.value.toNat ≤ amount

theorem issued_new (latency : Latency) : Issued 0 (new latency) :=
  ⟨rfl, fun _ held => absurd rfl held, fun _ held => absurd rfl held⟩

theorem next_tag_value {amount : Nat} {registry : Registry} (issued : Issued amount registry)
    (room : amount + 1 < UInt64.size) : registry.nextTag.value.toNat = amount + 1 := by
  have last := issued.last
  simp only [nextTag, TagCounter.next, UInt64.toNat_add]
  rw [last]
  exact Nat.mod_eq_of_lt room

theorem next_tag_free {amount : Nat} {registry : Registry} (issued : Issued amount registry)
    (room : amount + 1 < UInt64.size) : registry.entryAt registry.nextTag = none := by
  have value := next_tag_value issued room
  cases held : registry.entryAt registry.nextTag with
  | none => rfl
  | some entry =>
      have bounded := issued.bounded registry.nextTag (by simp [held])
      omega

theorem issued_begin {amount : Nat} {registry : Registry} (issued : Issued amount registry)
    (room : amount + 1 < UInt64.size) (target : HeapClass) (now : Nat) :
    Issued (amount + 1) (registry.begin target now).2 := by
  have value := next_tag_value issued room
  refine ⟨value, ?_, ?_⟩
  · intro tag held
    rw [entry_begin] at held
    by_cases same : tag = registry.nextTag
    · rw [same, value]
      exact Nat.succ_pos amount
    · exact issued.positive tag (by simpa [same] using held)
  · intro tag held
    rw [entry_begin] at held
    by_cases same : tag = registry.nextTag
    · rw [same]
      exact Nat.le_of_eq value
    · have bounded := issued.bounded tag (by simpa [same] using held)
      omega

theorem issued_take_tag {amount : Nat} {registry : Registry} (issued : Issued amount registry)
    (room : amount + 1 < UInt64.size) : Issued (amount + 1) registry.takeTag.2 :=
  ⟨next_tag_value issued room, issued.positive,
    fun tag held => Nat.le_succ_of_le (issued.bounded tag held)⟩

theorem issued_kept {amount : Nat} {registry after : Registry} (issued : Issued amount registry)
    (tags : after.tags = registry.tags)
    (opened : ∀ tag, after.entryAt tag ≠ none → registry.entryAt tag ≠ none) : Issued amount after :=
  ⟨tags ▸ issued.last, fun tag held => issued.positive tag (opened tag held),
    fun tag held => issued.bounded tag (opened tag held)⟩

end Registry

end HeapCensus
