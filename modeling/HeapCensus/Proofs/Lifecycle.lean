import HeapCensus.Proofs.ScanHistory

set_option autoImplicit false

namespace HeapCensus.Registry

def issued? : Event → Option Tag
  | (.begin _ _, .issued tag) => some tag
  | (.takeTag, .issued tag) => some tag
  | _ => none

def begun? : Event → Option Tag
  | (.begin _ _, .issued tag) => some tag
  | _ => none

def removed? : Event → Option Tag
  | (.finish tag, .finished (.ok _)) => some tag
  | (.abandon tag _, .abandoned (some _)) => some tag
  | _ => none

def completes (tag : Tag) : Event → Bool
  | (.complete named _, _) => tag = named
  | _ => false

def issuedTags (past : History) : List Tag := past.filterMap issued?

def begunTags (past : History) : List Tag := past.filterMap begun?

def removedTags (past : History) : List Tag := past.filterMap removed?

/-- A completion came after the scan was begun. One that came before is a stray. -/
def Completed (tag : Tag) : History → Prop
  | [] => False
  | event :: past => Completed tag past ∨ completes tag event = true ∧ tag ∈ begunTags past

def begins : Event → History → Nat
  | (.begin _ _, _), _ => 1
  | _, _ => 0

def finishes : Event → History → Nat
  | (.finish _, .finished (.ok _)), _ => 1
  | _, _ => 0

def abandons : Event → History → Nat
  | (.abandon _ _, .abandoned (some _)), _ => 1
  | _, _ => 0

def SameScan (entry later : ScanEntry) : Prop :=
  later.tally = entry.tally ∧ later.recorded = entry.recorded

/-- What an event makes of the entry of a tag. -/
inductive Fate (tag : Tag) (event : Event) : Option ScanEntry → Option ScanEntry → Prop
  | opened (target : HeapClass) (now : Nat) (begun : begun? event = some tag)
      (kept : removed? event = none) : Fate tag event none (some (ScanEntry.fresh target now))
  | removed (entry : ScanEntry) (report : ScanReport) (gone : removed? event = some tag)
      (begun : begun? event = none) (reported : report? event = some report)
      (tally : report.tally = entry.tally) (elapsed : report.elapsed = entry.recorded) :
      Fate tag event (some entry) none
  | kept (before : Option ScanEntry) (change : ScanEntry → ScanEntry)
      (begun : begun? event ≠ some tag) (removed : removed? event ≠ some tag)
      (complete : ∀ entry, (change entry).isComplete = (entry.isComplete || completes tag event))
      (same : ∀ entry, entry.isComplete = true → SameScan entry (change entry)) :
      Fate tag event before (before.map change)

theorem fate_untouched {tag : Tag} {event : Event} (entry : Option ScanEntry)
    (begun : begun? event ≠ some tag) (removed : removed? event ≠ some tag)
    (silent : completes tag event = false) : Fate tag event entry entry := by
  have fate := Fate.kept entry id begun removed (fun entry => by simp [silent]) fun _ _ => ⟨rfl, rfl⟩
  rwa [Option.map_id] at fate

theorem fate_named {tag named : Tag} {event : Event} {entry : Option ScanEntry}
    {change : ScanEntry → ScanEntry} (begun : begun? event = none) (removed : removed? event = none)
    (complete : ∀ entry, (change entry).isComplete = (entry.isComplete || completes named event))
    (silent : tag ≠ named → completes tag event = false)
    (same : ∀ entry, entry.isComplete = true → SameScan entry (change entry)) :
    Fate tag event entry (if tag = named then entry.map change else entry) := by
  by_cases mine : tag = named
  · subst mine
    rw [if_pos rfl]
    exact .kept entry change (by simp [begun]) (by simp [removed]) complete same
  · rw [if_neg mine]
    exact fate_untouched entry (by simp [begun]) (by simp [removed]) (silent mine)

theorem complete_visited (entry : ScanEntry) (object : HeapObject) :
    (entry.visited object).isComplete = entry.isComplete := by
  unfold ScanEntry.visited
  split <;> rfl

theorem same_visited {entry : ScanEntry} (closed : entry.isComplete = true) (object : HeapObject) :
    SameScan entry (entry.visited object) := by
  rw [ScanEntry.visited, if_pos closed]
  exact ⟨rfl, rfl⟩

theorem same_completed {entry : ScanEntry} (closed : entry.isComplete = true) (now : Nat) :
    SameScan entry (entry.completed now) := by
  rw [ScanEntry.completed, if_pos closed]
  exact ⟨rfl, rfl⟩

theorem fate_removed {registry : Registry} {named : Tag} {event : Event} {entry : ScanEntry}
    {report : ScanReport} (held : registry.entryAt named = some entry)
    (gone : removed? event = some named) (begun : begun? event = none)
    (reported : report? event = some report) (tally : report.tally = entry.tally)
    (elapsed : report.elapsed = entry.recorded) (silent : ∀ tag, completes tag event = false) (tag : Tag) :
    Fate tag event (registry.entryAt tag) ((registry.remove named).entryAt tag) := by
  rw [entry_remove]
  by_cases mine : tag = named
  · subst mine
    rw [if_pos rfl, held]
    exact .removed entry report gone begun reported tally elapsed
  · rw [if_neg mine]
    have other : named ≠ tag := fun same => mine same.symm
    exact fate_untouched _ (by simp [begun]) (by simp [gone, other]) (silent tag)

theorem perform_fate {registry : Registry} (free : registry.entryAt registry.nextTag = none)
    (call : Call) (tag : Tag) :
    Fate tag (call, (registry.perform call).1) (registry.entryAt tag)
      ((registry.perform call).2.entryAt tag) := by
  cases call with
  | begin target now =>
      change Fate tag (.begin target now, .issued registry.nextTag) _
        ((registry.begin target now).2.entryAt tag)
      rw [entry_begin]
      by_cases mine : tag = registry.nextTag
      · rw [if_pos mine, mine, free]
        exact .opened target now rfl rfl
      · rw [if_neg mine]
        have other : registry.nextTag ≠ tag := fun same => mine same.symm
        exact fate_untouched _ (by simp [begun?, other]) (by simp [removed?]) rfl
  | visit named object =>
      cases object with
      | none => exact fate_untouched _ (by simp [begun?]) (by simp [removed?]) rfl
      | some object =>
          simp only [perform, entry_visit]
          apply fate_named rfl rfl
          · intro entry
            simp [complete_visited, completes]
          · exact fun _ => rfl
          · exact fun entry closed => same_visited closed object
  | complete named now =>
      simp only [perform, entry_complete]
      apply fate_named rfl rfl
      · intro entry
        simp [ScanEntry.completed_complete, completes]
      · intro other
        simpa [completes] using other
      · exact fun entry closed => same_completed closed now
  | fault named message =>
      simp only [perform, entry_fault]
      apply fate_named rfl rfl
      · exact fun entry => (Bool.or_false _).symm
      · exact fun _ => rfl
      · exact fun entry _ => ⟨rfl, rfl⟩
  | finish named =>
      cases held : registry.entryAt named with
      | none =>
          simp only [perform, finish_absent held]
          exact fate_untouched _ (by simp [begun?]) (by simp [removed?]) rfl
      | some entry =>
          cases closed : entry.isComplete with
          | false =>
              simp only [perform, finish_open held closed]
              exact fate_untouched _ (by simp [begun?]) (by simp [removed?]) rfl
          | true =>
              simp only [perform, finish_closed held closed]
              exact fate_removed held rfl rfl rfl rfl rfl (fun _ => rfl) tag
  | abandon named reason =>
      cases held : registry.entryAt named with
      | none =>
          simp only [perform, abandon_absent held]
          exact fate_untouched _ (by simp [begun?]) (by simp [removed?]) rfl
      | some entry =>
          simp only [perform, abandon_held held]
          exact fate_removed held rfl rfl rfl rfl rfl (fun _ => rfl) tag
  | takeTag => exact fate_untouched _ (by simp [begun?]) (by simp [removed?]) rfl

theorem issued_next {registry : Registry} {call : Call} {tag : Tag}
    (issued : issued? (call, (registry.perform call).1) = some tag) :
    tag = registry.nextTag ∧ ∀ past, tagsIssued (call, (registry.perform call).1) past = 1 := by
  cases call with
  | begin | takeTag => exact ⟨(Option.some.inj issued).symm, fun _ => rfl⟩
  | visit | complete | fault | finish | abandon => simp [issued?] at issued

theorem begun_issued {event : Event} {tag : Tag} (begun : begun? event = some tag) :
    issued? event = some tag := by
  obtain ⟨call, reply⟩ := event
  cases call with
  | begin =>
      cases reply with
      | issued => exact begun
      | done | finished | abandoned => simp [begun?] at begun
  | takeTag | visit | complete | fault | finish | abandon => simp [begun?] at begun

structure Chronicle (past : History) (registry : Registry) : Prop where
  bounded : ∀ tag ∈ issuedTags past, 0 < tag.value.toNat ∧ tag.value.toNat ≤ across tagsIssued past
  descending : (issuedTags past).Pairwise fun newer older => older.value < newer.value
  answered : (begunTags past).length = across begins past
  balance : registry.inFlight + across finishes past + across abandons past = across begins past
  live : ∀ tag, registry.entryAt tag ≠ none ↔ tag ∈ begunTags past ∧ tag ∉ removedTags past
  removed : ∀ tag ∈ removedTags past, tag ∈ begunTags past
  once : (removedTags past).Nodup
  complete : ∀ tag entry, registry.entryAt tag = some entry →
    (entry.isComplete = true ↔ Completed tag past)

theorem chronicle_new (latency : Latency) : Chronicle [] (new latency) where
  bounded := fun _ member => nomatch member
  descending := .nil
  answered := rfl
  balance := rfl
  live := fun _ => ⟨fun held => absurd rfl held, fun told => nomatch told.1⟩
  removed := fun _ member => nomatch member
  once := .nil
  complete := fun _ _ held => nomatch held

theorem begun_subset (past : History) {tag : Tag} (begun : tag ∈ begunTags past) :
    tag ∈ issuedTags past := by
  obtain ⟨event, member, named⟩ := List.mem_filterMap.mp begun
  exact List.mem_filterMap.mpr ⟨event, member, begun_issued named⟩

theorem completed_begun {tag : Tag} {past : History} (completed : Completed tag past) :
    tag ∈ begunTags past := by
  induction past with
  | nil => exact completed.elim
  | cons event past ih =>
      have earlier : tag ∈ begunTags past := by
        rcases completed with before | ⟨_, begun⟩
        · exact ih before
        · exact begun
      obtain ⟨other, member, named⟩ := List.mem_filterMap.mp earlier
      exact List.mem_filterMap.mpr ⟨other, List.mem_cons_of_mem event member, named⟩

theorem mem_filter_map_cons {part : Event → Option Tag} {event : Event} {past : History} {tag : Tag} :
    tag ∈ (event :: past).filterMap part ↔ part event = some tag ∨ tag ∈ past.filterMap part := by
  simp [List.filterMap_cons]
  cases part event with
  | none => simp
  | some other => simp [eq_comm]

section Perform

variable {past : History} {registry : Registry} {call : Call}

theorem next_fresh (chronicle : Chronicle past registry)
    (issued : Issued (across tagsIssued past) registry) (room : across tagsIssued past + 1 < UInt64.size) :
    registry.nextTag ∉ issuedTags past := by
  intro member
  have value := next_tag_value issued room
  have bounded := (chronicle.bounded registry.nextTag member).2
  omega

theorem bounded_perform (chronicle : Chronicle past registry)
    (issued : Issued (across tagsIssued past) registry)
    (room : across tagsIssued ((call, (registry.perform call).1) :: past) < UInt64.size) :
    ∀ tag ∈ issuedTags ((call, (registry.perform call).1) :: past), 0 < tag.value.toNat ∧
      tag.value.toNat ≤ across tagsIssued ((call, (registry.perform call).1) :: past) := by
  intro tag member
  rw [across] at room ⊢
  rcases mem_filter_map_cons.mp member with here | before
  · obtain ⟨rfl, one⟩ := issued_next here
    rw [one] at room ⊢
    have value := next_tag_value issued room
    omega
  · obtain ⟨positive, bounded⟩ := chronicle.bounded tag before
    omega

theorem descending_perform (chronicle : Chronicle past registry)
    (issued : Issued (across tagsIssued past) registry)
    (room : across tagsIssued ((call, (registry.perform call).1) :: past) < UInt64.size) :
    (issuedTags ((call, (registry.perform call).1) :: past)).Pairwise
      fun newer older => older.value < newer.value := by
  rw [across] at room
  rw [issuedTags, List.filterMap_cons]
  cases given : issued? (call, (registry.perform call).1) with
  | none => exact chronicle.descending
  | some tag =>
      obtain ⟨rfl, one⟩ := issued_next given
      rw [one] at room
      refine List.pairwise_cons.mpr ⟨fun older member => ?_, chronicle.descending⟩
      have value := next_tag_value issued room
      have bounded := (chronicle.bounded older member).2
      rw [UInt64.lt_iff_toNat_lt]
      omega

theorem answered_perform (chronicle : Chronicle past registry) :
    (begunTags ((call, (registry.perform call).1) :: past)).length =
      across begins ((call, (registry.perform call).1) :: past) := by
  have answered := chronicle.answered
  cases call with
  | begin target now => exact congrArg (· + 1) answered
  | visit | complete | fault | finish | abandon | takeTag => exact answered

theorem in_flight_step {event : Event} {after : Registry} (step : Step past registry event after)
    (free : registry.entryAt registry.nextTag = none) :
    after.inFlight + finishes event past + abandons event past = registry.inFlight + begins event past := by
  cases step with
  | began target now => exact in_flight_begin registry target now free
  | counted tag object entry account held => exact in_flight_replace registry tag (entry.count object)
  | completed tag now elapsed entry account held => exact in_flight_replace registry tag (entry.completed now)
  | faulted tag message entry account held => exact in_flight_replace registry tag (entry.addFault message)
  | finished tag entry held => exact in_flight_remove held
  | abandoned tag reason entry account held => exact in_flight_remove held
  | passed | lost | completedNone | completedAgain | faultedNone | refused | abandonedNone | took => rfl

theorem open_of_removed {tag : Tag} {event : Event} {before after : Option ScanEntry}
    (fate : Fate tag event before after) (removed : removed? event = some tag) : before ≠ none := by
  cases fate with
  | opened target now begun kept => simp [kept] at removed
  | removed entry => simp
  | kept _ change begun unmoved => exact absurd removed unmoved

theorem live_fate {event : Event} {tag : Tag} {before after : Option ScanEntry}
    (fate : Fate tag event before after) (fresh : begun? event = some tag → tag ∉ begunTags past)
    (removed : ∀ tag ∈ removedTags past, tag ∈ begunTags past)
    (live : before ≠ none ↔ tag ∈ begunTags past ∧ tag ∉ removedTags past) :
    after ≠ none ↔ tag ∈ begunTags (event :: past) ∧ tag ∉ removedTags (event :: past) := by
  unfold begunTags removedTags at *
  rw [mem_filter_map_cons, mem_filter_map_cons]
  cases fate with
  | opened target now begun kept =>
      have absent := fresh begun
      have never : tag ∉ past.filterMap removed? := fun gone => absent (removed tag gone)
      simp [begun, kept, never]
  | removed entry report gone begun => simp [gone]
  | kept _ change begun unmoved =>
      simp only [begun, unmoved, false_or]
      rw [← live]
      simp

theorem complete_fate {event : Event} {tag : Tag} {before after : Option ScanEntry}
    (fate : Fate tag event before after) (fresh : begun? event = some tag → tag ∉ begunTags past)
    (live : before ≠ none → tag ∈ begunTags past)
    (complete : ∀ entry, before = some entry → (entry.isComplete = true ↔ Completed tag past))
    (entry : ScanEntry) (held : after = some entry) :
    entry.isComplete = true ↔ Completed tag (event :: past) := by
  cases fate with
  | opened target now begun kept =>
      obtain rfl := Option.some.inj held
      have absent := fresh begun
      have never : ¬ Completed tag past := fun completed => absent (completed_begun completed)
      simp [ScanEntry.fresh, ScanEntry.isComplete, Completed, never, absent]
  | removed => cases held
  | kept _ change begun unmoved changed =>
      obtain ⟨old, here, rfl⟩ := Option.map_eq_some_iff.mp held
      have present := live (by simp [here])
      rw [changed, Bool.or_eq_true, complete old here, Completed]
      simp [present]

theorem chronicle_perform (chronicle : Chronicle past registry) (follows : Follows past registry)
    (issued : Issued (across tagsIssued past) registry)
    (room : across tagsIssued ((call, (registry.perform call).1) :: past) < UInt64.size)
    (free : registry.entryAt registry.nextTag = none) :
    Chronicle ((call, (registry.perform call).1) :: past) (registry.perform call).2 := by
  have fate := perform_fate free call
  have fresh : ∀ tag, begun? (call, (registry.perform call).1) = some tag → tag ∉ begunTags past := by
    intro tag begun member
    obtain ⟨rfl, one⟩ := issued_next (begun_issued begun)
    rw [across, one] at room
    exact next_fresh chronicle issued room (begun_subset past member)
  have opened : ∀ tag, removed? (call, (registry.perform call).1) = some tag →
      tag ∈ begunTags past ∧ tag ∉ removedTags past := fun tag removed =>
    (chronicle.live tag).mp (open_of_removed (fate tag) removed)
  refine ⟨bounded_perform chronicle issued room, descending_perform chronicle issued room,
    answered_perform chronicle, ?_, ?_, ?_, ?_, ?_⟩
  · have step := in_flight_step (perform_step follows call) free
    have balance := chronicle.balance
    simp only [across]
    omega
  · exact fun tag => live_fate (fate tag) (fresh tag) chronicle.removed (chronicle.live tag)
  · intro tag member
    refine mem_filter_map_cons.mpr (.inr ?_)
    rcases mem_filter_map_cons.mp member with here | before
    · exact (opened tag here).1
    · exact chronicle.removed tag before
  · rw [removedTags, List.filterMap_cons]
    cases removed : removed? (call, (registry.perform call).1) with
    | none => exact chronicle.once
    | some tag => exact List.nodup_cons.mpr ⟨(opened tag removed).2, chronicle.once⟩
  · intro tag
    exact complete_fate (fate tag) (fresh tag) (fun held => ((chronicle.live tag).mp held).1)
      (chronicle.complete tag)

end Perform

theorem next_always_free {amount : Nat} {registry : Registry} (issued : Issued amount registry) :
    registry.entryAt registry.nextTag = none := by
  by_cases room : amount + 1 < UInt64.size
  · exact next_tag_free issued room
  · cases held : registry.entryAt registry.nextTag with
    | none => rfl
    | some entry =>
        have last := issued.last
        have within := registry.tags.last.value.toNat_lt
        have positive := issued.positive registry.nextTag (by simp [held])
        simp only [nextTag, TagCounter.next, UInt64.toNat_add] at positive
        rw [last] at positive within
        have size : UInt64.size = 2 ^ 64 := rfl
        have one : UInt64.toNat 1 = 1 := rfl
        omega

theorem reached_chronicle {latency : Latency} {past : History} {registry : Registry}
    (reached : Reached latency past registry) (few : across tagsIssued past < UInt64.size) :
    Chronicle past registry := by
  induction reached with
  | new => exact chronicle_new latency
  | call past registry call reached ih =>
      have fewer := Nat.lt_of_le_of_lt (Nat.le_add_right _ _) few
      have issued := reached_issued reached fewer
      exact chronicle_perform (ih fewer) (reached_follows reached) issued few (next_always_free issued)

theorem run_append_singleton (latency : Latency) (calls : List Call) (call : Call) :
    run latency (calls ++ [call]) =
      ((call, ((run latency calls).2.perform call).1) :: (run latency calls).1,
        ((run latency calls).2.perform call).2) := by
  simp [run]

theorem tags_issued_le (latency : Latency) (calls more : List Call) :
    across tagsIssued (run latency calls).1 ≤ across tagsIssued (run latency (calls ++ more)).1 := by
  induction more using List.reverseRecOn with
  | nil => simp
  | append_singleton more call ih =>
      rw [← List.append_assoc, run_append_singleton]
      exact Nat.le_trans ih (Nat.le_add_right _ _)

theorem tags_issued_before {latency : Latency} {calls more : List Call} {call : Call}
    (few : across tagsIssued (run latency (calls ++ (more ++ [call]))).1 < UInt64.size) :
    across tagsIssued (run latency (calls ++ more)).1 < UInt64.size := by
  have within := tags_issued_le latency (calls ++ more) [call]
  rw [List.append_assoc] at within
  exact Nat.lt_of_le_of_lt within few

/-- A complete scan stays what it is, until an event takes it out and reports it. -/
structure Frozen (tag : Tag) (entry : ScanEntry) (past : History) (registry : Registry) : Prop where
  begun : tag ∈ begunTags past
  stays : tag ∉ removedTags past → ∃ later, registry.entryAt tag = some later ∧ SameScan entry later
  reported : ∀ event ∈ past, removed? event = some tag →
    ∃ report, report? event = some report ∧ report.tally = entry.tally ∧ report.elapsed = entry.recorded

theorem frozen_fate {tag : Tag} {entry : ScanEntry} {past : History} {registry after : Registry}
    {event : Event} (frozen : Frozen tag entry past registry) (closed : entry.isComplete = true)
    (fate : Fate tag event (registry.entryAt tag) (after.entryAt tag))
    (opened : removed? event = some tag → tag ∉ removedTags past) :
    Frozen tag entry (event :: past) after := by
  refine ⟨mem_filter_map_cons.mpr (.inr frozen.begun), ?_, ?_⟩
  · intro remains
    have earlier : tag ∉ removedTags past := fun gone => remains (mem_filter_map_cons.mpr (.inr gone))
    obtain ⟨later, held, same⟩ := frozen.stays earlier
    rw [held] at fate
    generalize after.entryAt tag = next at fate
    cases fate with
    | removed _ report gone => exact absurd (mem_filter_map_cons.mpr (.inl gone)) remains
    | kept _ change begun unmoved complete unchanged =>
        have stillClosed : later.isComplete = true := by
          rw [ScanEntry.isComplete, same.2]
          exact closed
        have again := unchanged later stillClosed
        exact ⟨change later, rfl, again.1.trans same.1, again.2.trans same.2⟩
  · intro other member gone
    rcases List.mem_cons.mp member with rfl | before
    · obtain ⟨later, held, same⟩ := frozen.stays (opened gone)
      rw [held] at fate
      generalize after.entryAt tag = next at fate
      cases fate with
      | removed _ report _ _ reported tally elapsed =>
          exact ⟨report, reported, tally.trans same.1, elapsed.trans same.2⟩
      | kept _ change begun unmoved => exact absurd gone unmoved
    · exact frozen.reported other before gone

theorem frozen_run (latency : Latency) (calls more : List Call) {tag : Tag} {entry : ScanEntry}
    (few : across tagsIssued (run latency (calls ++ more)).1 < UInt64.size)
    (held : (run latency calls).2.entryAt tag = some entry) (closed : entry.isComplete = true) :
    Frozen tag entry (run latency (calls ++ more)).1 (run latency (calls ++ more)).2 := by
  induction more using List.reverseRecOn with
  | nil =>
      rw [List.append_nil] at few ⊢
      have chronicle := reached_chronicle (run_reached latency calls) few
      obtain ⟨begun, remains⟩ := (chronicle.live tag).mp (by simp [held])
      refine ⟨begun, fun _ => ⟨entry, held, rfl, rfl⟩, fun event member gone => ?_⟩
      exact absurd (List.mem_filterMap.mpr ⟨event, member, gone⟩) remains
  | append_singleton more call ih =>
      have fewer := tags_issued_before few
      have reached := run_reached latency (calls ++ more)
      have chronicle := reached_chronicle reached fewer
      have fate := perform_fate (next_always_free (reached_issued reached fewer)) call tag
      rw [← List.append_assoc, run_append_singleton]
      refine frozen_fate (ih fewer) closed fate fun gone => ?_
      exact ((chronicle.live tag).mp (open_of_removed fate gone)).2

/-- A tag is registered when it is begun and not removed. The registry is given as it is after any calls,
`later` as it is after any more calls; failed calls give it back unchanged. -/
theorem scan_lifecycle (latency : Latency) (calls more : List Call)
    (few : across tagsIssued (run latency (calls ++ more)).1 < UInt64.size) :
    let past := (run latency calls).1
    let registry := (run latency calls).2
    let later := run latency (calls ++ more)
    ((begunTags past).length = across begins past ∧
        (issuedTags past).Pairwise (fun newer older => older.value < newer.value) ∧
        Tag.clear ∉ issuedTags past) ∧
      registry.inFlight + across finishes past + across abandons past = across begins past ∧
      (removedTags past).Nodup ∧
      (∀ tag, tag ∈ begunTags past → tag ∉ removedTags past → ¬ Completed tag past →
        registry.finish tag = (.error (.notComplete tag), registry)) ∧
      (∀ tag, tag ∉ begunTags past ∨ tag ∈ removedTags past →
        registry.finish tag = (.error (.unknownTag tag), registry) ∧
          ∀ reason, registry.abandon tag reason = (none, registry)) ∧
      (∀ tag, tag ∈ begunTags past → tag ∉ removedTags past → Completed tag past →
        ∃ entry, registry.entryAt tag = some entry ∧ entry.isComplete = true ∧
          Frozen tag entry later.1 later.2) := by
  intro past registry later
  have fewer := Nat.lt_of_le_of_lt (tags_issued_le latency calls more) few
  have chronicle := reached_chronicle (run_reached latency calls) fewer
  have registered : ∀ tag, tag ∈ begunTags past → tag ∉ removedTags past →
      ∃ entry, registry.entryAt tag = some entry ∧ (entry.isComplete = true ↔ Completed tag past) := by
    intro tag begun remains
    cases held : registry.entryAt tag with
    | none => exact absurd held ((chronicle.live tag).mpr ⟨begun, remains⟩)
    | some entry => exact ⟨entry, rfl, chronicle.complete tag entry held⟩
  refine ⟨⟨chronicle.answered, chronicle.descending, fun member => ?_⟩, chronicle.balance, chronicle.once, ?_, ?_, ?_⟩
  · exact Nat.lt_irrefl 0 (chronicle.bounded Tag.clear member).1
  · intro tag begun remains incomplete
    obtain ⟨entry, held, complete⟩ := registered tag begun remains
    have unfinished : entry.isComplete = false :=
      Bool.eq_false_iff.mpr fun closed => incomplete (complete.mp closed)
    exact finish_open held unfinished
  · intro tag unregistered
    have absent : registry.entryAt tag = none := by
      by_contra held
      obtain ⟨begun, remains⟩ := (chronicle.live tag).mp held
      rcases unregistered with never | gone
      · exact never begun
      · exact remains gone
    exact ⟨finish_absent absent, fun reason => abandon_absent absent reason⟩
  · intro tag begun remains completed
    obtain ⟨entry, held, complete⟩ := registered tag begun remains
    have closed := complete.mpr completed
    exact ⟨entry, held, closed, frozen_run latency calls more few held closed⟩

theorem two_scans_lifecycle :
    let base := HeapClass.concrete ⟨1⟩ "com.acme.Base" none
    let calls := [Call.complete ⟨1⟩ 0, .begin base 0, .visit ⟨1⟩ (some ⟨⟨7⟩, base⟩), .takeTag,
      .begin base 1, .complete ⟨1⟩ 5]
    let more := [Call.visit ⟨1⟩ (some ⟨⟨8⟩, base⟩), .complete ⟨1⟩ 9, .finish ⟨1⟩, .abandon ⟨3⟩ "stuck"]
    let latency := Latency.empty 4 (by decide)
    let registry := (run latency calls).2
    let later := run latency (calls ++ more)
    across tagsIssued later.1 < UInt64.size ∧
      registry.finish ⟨3⟩ = (.error (.notComplete ⟨3⟩), registry) ∧
      registry.finish ⟨2⟩ = (.error (.unknownTag ⟨2⟩), registry) ∧
      ∃ entry, registry.entryAt ⟨1⟩ = some entry ∧ entry.isComplete = true ∧
        Frozen ⟨1⟩ entry later.1 later.2 := by
  intro base calls more latency registry later
  have few : across tagsIssued later.1 < UInt64.size := by
    change 3 < UInt64.size
    decide
  obtain ⟨_, _, _, incomplete, unknown, complete⟩ := scan_lifecycle latency calls more few
  refine ⟨few, incomplete ⟨3⟩ (by decide) (by decide) ?_, (unknown ⟨2⟩ (.inl (by decide))).1,
    complete ⟨1⟩ (by decide) (by decide) (.inr ⟨rfl, by decide⟩)⟩
  simp [calls, run, perform, Completed, completes]

end HeapCensus.Registry
