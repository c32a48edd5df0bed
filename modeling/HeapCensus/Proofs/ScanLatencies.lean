import HeapCensus.Proofs.Lifecycle
import HeapCensus.Proofs.Scan

set_option autoImplicit false

namespace HeapCensus

namespace Registry

def abandonedLate : Event → History → Nat
  | (.abandon tag _, _), past => if (account tag past).any Account.complete then 1 else 0
  | _, _ => 0

def displacedLate (event : Event) (past : History) : Nat :=
  if (displaced? event past).any Account.complete then 1 else 0

def isLate (entry : ScanEntry) : Nat := if entry.isComplete then 1 else 0

def completeScans (registry : Registry) : Nat := registry.total isLate

def OnlyFinishedTimed (latency : Latency) (past : History) (registry : Registry) : Prop :=
  registry.latency.count = latency.count + across finishes past + registry.completeScans

structure LatenciesKept (latency : Latency) (past : History) (registry : Registry) : Prop where
  count : registry.latency.count = latency.count + across finishes past + registry.completeScans +
    across abandonedLate past + across displacedLate past
  undisplaced : across tagsIssued past < UInt64.size → across displacedLate past = 0
  onlyFinished : across tagsIssued past < UInt64.size →
    (OnlyFinishedTimed latency past registry ↔ across abandonedLate past = 0)

theorem finish_ok {registry : Registry} {tag : Tag} {report : ScanReport}
    (answered : (registry.finish tag).1 = .ok report) {entry : ScanEntry}
    (held : registry.entryAt tag = some entry) : entry.isComplete = true := by
  cases closed : entry.isComplete with
  | true => rfl
  | false =>
      rw [finish_open held closed] at answered
      cases answered

theorem late_of_agrees {account : Option Account} {entry : Option ScanEntry} (agrees : Agrees account entry) :
    (entry.map isLate).getD 0 = if account.any Account.complete then 1 else 0 := by
  cases entry with
  | none => simp [agrees_none agrees]
  | some entry =>
      obtain ⟨account, rfl, matched⟩ := agrees_some agrees
      simp [isLate, matched.complete]

theorem completions_balance {past : History} {registry after : Registry} {event : Event}
    (follows : Follows past registry) (step : Step past registry event after)
    (closed : ∀ tag report entry, event = (.finish tag, .finished (.ok report)) →
      registry.entryAt tag = some entry → entry.isComplete = true) :
    firstCompletions event past + registry.completeScans =
      finishes event past + after.completeScans + abandonedLate event past + displacedLate event past := by
  -- A latency is added when a scan is completed, and the scan is among the complete ones from then on
  -- until it leaves them in one of three ways.
  -- A step touches one entry at most, so both sums change by what becomes of that entry.
  cases step with
  | began target now =>
      have begun := total_begin isLate registry target now
      rw [late_of_agrees (follows registry.nextTag)] at begun
      have fresh : isLate (ScanEntry.fresh target now) = 0 := rfl
      change 0 + registry.total isLate = 0 + (registry.begin target now).2.total isLate + 0 +
        (if (account registry.nextTag past).any Account.complete then 1 else 0)
      omega
  | counted tag object entry account held accounted unfinished =>
      have replaced := total_replace isLate registry tag entry (entry.count object) held
      have same : isLate (entry.count object) = isLate entry := rfl
      change 0 + registry.total isLate = 0 + (registry.replace tag (entry.count object)).total isLate + 0 + 0
      omega
  | completed tag now elapsed entry account held accounted unfinished =>
      have replaced := total_replace isLate registry tag entry (entry.completed now) held
      have before : isLate entry = 0 := by
        obtain ⟨_, same, matched⟩ := agrees_some (held ▸ follows tag)
        obtain rfl := Option.some.inj (accounted.symm.trans same)
        simp [isLate, matched.complete, unfinished]
      have now_late : isLate (entry.completed now) = 1 := by simp [isLate, ScanEntry.completed_complete]
      have first : firstCompletions (.complete tag now, .done) past = 1 := by
        simp [firstCompletions, accounted, unfinished]
      change firstCompletions _ past + registry.total isLate =
        0 + (registry.replace tag (entry.completed now)).total isLate + 0 + 0
      omega
  | completedAgain tag now account accounted finished =>
      change (if _ then 1 else 0) + registry.completeScans = 0 + registry.completeScans + 0 + 0
      simp [accounted, finished]
  | completedNone tag now absent =>
      change (if _ then 1 else 0) + registry.completeScans = 0 + registry.stray.completeScans + 0 + 0
      simp [absent, completeScans, total, stray]
  | faulted tag message entry account held accounted =>
      have replaced := total_replace isLate registry tag entry (entry.addFault message) held
      have same : isLate (entry.addFault message) = isLate entry := rfl
      change 0 + registry.total isLate = 0 + (registry.replace tag (entry.addFault message)).total isLate + 0 + 0
      omega
  | finished tag entry held =>
      have removed := total_remove isLate registry tag entry held
      have late : isLate entry = 1 := by simp [isLate, closed tag _ entry rfl held]
      change 0 + registry.total isLate = 1 + (registry.remove tag).total isLate + 0 + 0
      omega
  | abandoned tag reason entry account held accounted =>
      have removed := total_remove isLate registry tag entry held
      have late := late_of_agrees (held ▸ follows tag)
      change 0 + registry.total isLate = 0 + (registry.remove tag).total isLate +
        (if (Registry.account tag past).any Account.complete then 1 else 0) + 0
      rw [← late, Option.map_some, Option.getD_some]
      omega
  | abandonedNone tag reason absent =>
      change 0 + registry.completeScans = 0 + registry.completeScans + (if _ then 1 else 0) + 0
      simp [absent]
  | passed | lost | faultedNone | refused | took =>
      change 0 + registry.completeScans = 0 + registry.completeScans + 0 + 0
      omega

theorem reached_completions {latency : Latency} {past : History} {registry : Registry}
    (reached : Reached latency past registry) :
    across firstCompletions past =
      across finishes past + registry.completeScans + across abandonedLate past + across displacedLate past := by
  induction reached with
  | new => rfl
  | call past registry call reached ih =>
      have follows := reached_follows reached
      have balance := completions_balance follows (perform_step follows call) fun tag report entry same held => by
        obtain ⟨rfl, answered⟩ := Prod.mk.inj same
        exact finish_ok (Reply.finished.inj answered) held
      simp only [across]
      omega

theorem reached_latencies {latency : Latency} {past : History} {registry : Registry}
    (reached : Reached latency past registry) : LatenciesKept latency past registry := by
  obtain ⟨_, _, timed, _⟩ := reached_balance reached
  have completions := reached_completions reached
  have undisplaced : across tagsIssued past < UInt64.size → across displacedLate past = 0 := by
    intro few
    refine across_eq_zero displacedLate past fun event earlier within => ?_
    simp [displacedLate, reached_displaces_none reached few event earlier within]
  have count : registry.latency.count = latency.count + across finishes past + registry.completeScans +
      across abandonedLate past + across displacedLate past := by omega
  refine ⟨count, undisplaced, fun few => ?_⟩
  rw [OnlyFinishedTimed, count, undisplaced few]
  omega

theorem run_finish_closed (latency : Latency) (calls : List Call) {tag : Tag} {entry : ScanEntry}
    (held : (run latency calls).2.entryAt tag = some entry) (closed : entry.isComplete = true) :
    (run latency (calls ++ [.finish tag])).2 = (run latency calls).2.remove tag := by
  rw [run_append_singleton]
  simp only [perform, finish_closed held closed]

theorem run_finish_open (latency : Latency) (calls : List Call) {tag : Tag} {entry : ScanEntry}
    (held : (run latency calls).2.entryAt tag = some entry) (unfinished : entry.isComplete = false) :
    (run latency (calls ++ [.finish tag])).2 = (run latency calls).2 := by
  rw [run_append_singleton]
  simp only [perform, finish_open held unfinished]

theorem run_abandon (latency : Latency) (calls : List Call) {tag : Tag} {entry : ScanEntry}
    (held : (run latency calls).2.entryAt tag = some entry) (reason : String) :
    (run latency (calls ++ [.abandon tag reason])).2 = (run latency calls).2.remove tag ∧
      across abandonedLate (run latency (calls ++ [.abandon tag reason])).1 =
        across abandonedLate (run latency calls).1 + isLate entry := by
  have late := late_of_agrees (held ▸ reached_follows (run_reached latency calls) tag)
  rw [run_append_singleton]
  refine ⟨by simp only [perform, abandon_held held], ?_⟩
  exact congrArg (across abandonedLate (run latency calls).1 + ·) late.symm

def abandoning : Call → Bool
  | .abandon _ _ => true
  | _ => false

theorem run_quiet (latency : Latency) (calls more : List Call) (quiet : ∀ call ∈ more, abandoning call = false) :
    across abandonedLate (run latency (calls ++ more)).1 = across abandonedLate (run latency calls).1 := by
  induction more using List.reverseRecOn with
  | nil => rw [List.append_nil]
  | append_singleton more call ih =>
      have before := ih fun other member => quiet other (List.mem_append_left _ member)
      rw [← List.append_assoc, run_append_singleton, across, before]
      cases call with
      | abandon tag reason =>
          have silent := quiet _ (List.mem_append_right _ (List.mem_singleton_self _))
          cases silent
      | begin | visit | complete | fault | finish | takeTag => rfl

def callOf (now : Nat) : ScanEvent → Call
  | .visited tag object => .visit tag object
  | .completed tag => .complete tag now
  | .fault tag message => .fault tag message

theorem run_events (latency : Latency) (calls : List Call) (now : Nat) (events : List ScanEvent) :
    (run latency (calls ++ events.map (callOf now))).2 = (run latency calls).2.receiveAll now events := by
  induction events using List.reverseRecOn with
  | nil => rw [List.map_nil, List.append_nil, receiveAll, List.foldl_nil]
  | append_singleton events event ih =>
      rw [List.map_append, ← List.append_assoc, List.map_singleton, run_append_singleton, ih, receiveAll,
        receiveAll, List.foldl_append]
      cases event <;> rfl

theorem run_reported (latency : Latency) (calls : List Call) (type : HeapClass) (now : Nat)
    (events : List ScanEvent) :
    let asked := run latency (calls ++ .begin type now :: events.map (callOf now))
    asked.2 = ((run latency calls).2.begin type now).2.receiveAll now events ∧
      across abandonedLate asked.1 = across abandonedLate (run latency calls).1 := by
  constructor
  · rw [List.append_cons, run_events, run_append_singleton]
    rfl
  · refine run_quiet latency calls _ fun call member => ?_
    rcases List.mem_cons.mp member with rfl | reported
    · rfl
    · obtain ⟨event, _, rfl⟩ := List.mem_map.mp reported
      cases event <;> rfl

end Registry

namespace Query

open Registry

variable {ω : Type}

def lastCalls (tag : Tag) (recording : Recording) : List Call :=
  (match recording.outcome with
    | .ok () => [.finish tag]
    | .error _ => []) ++ (recording.closing tag).toList.map (.abandon tag)

/-- The calls that a query makes of the registry for one scan, in their order. -/
def scanCalls (type : HeapClass) (now : Nat) (tag : Tag) (recording : Recording) : List Call :=
  (.begin type now :: recording.events.map (callOf now)) ++ lastCalls tag recording

/-- The walker has reported the completion and fails all the same. -/
def FailsLate (tag : Tag) (recording : Recording) : Prop :=
  recording.closing tag ≠ none ∧ .completed tag ∈ recording.events

instance (tag : Tag) (recording : Recording) : Decidable (FailsLate tag recording) :=
  inferInstanceAs (Decidable (_ ∧ _))

theorem run_last_calls (latency : Latency) (calls : List Call) {tag : Tag} {entry : ScanEntry}
    (recording : Recording) (held : (run latency calls).2.entryAt tag = some entry)
    (complete : entry.isComplete = decide (.completed tag ∈ recording.events)) :
    (run latency (calls ++ lastCalls tag recording)).2 = (run latency calls).2.remove tag ∧
      across abandonedLate (run latency (calls ++ lastCalls tag recording)).1 =
        across abandonedLate (run latency calls).1 + if FailsLate tag recording then 1 else 0 := by
  have late : ∀ {reason}, recording.closing tag = some reason →
      isLate entry = if FailsLate tag recording then 1 else 0 := by
    intro reason closing
    simp [isLate, complete, FailsLate, closing]
  obtain ⟨outcome, events⟩ := recording
  cases outcome with
  | error failure =>
      obtain ⟨reason, closing⟩ : ∃ reason, Recording.closing tag ⟨.error failure, events⟩ = some reason := by
        cases failure <;> exact ⟨_, rfl⟩
      have last : lastCalls tag ⟨.error failure, events⟩ = [.abandon tag reason] := by
        rw [lastCalls, closing]
        rfl
      rw [last, ← late closing]
      exact run_abandon latency calls held reason
  | ok value =>
      by_cases completed : .completed tag ∈ events
      · have closing : Recording.closing tag ⟨.ok value, events⟩ = none := by simp [Recording.closing, completed]
        have last : lastCalls tag ⟨.ok value, events⟩ = [.finish tag] := by
          rw [lastCalls, closing]
          rfl
        have timely : ¬ FailsLate tag ⟨.ok value, events⟩ := fun fails => fails.1 closing
        rw [last, if_neg timely]
        refine ⟨run_finish_closed latency calls held (by simpa [completed] using complete), ?_⟩
        exact run_quiet latency calls _ (by simp [abandoning])
      · have unfinished : entry.isComplete = false := by simpa [completed] using complete
        have closing : Recording.closing tag ⟨.ok value, events⟩ = some (WalkerError.incomplete tag).message := by
          simp [Recording.closing, completed]
        have last : lastCalls tag ⟨.ok value, events⟩ =
            [.finish tag] ++ [.abandon tag (WalkerError.incomplete tag).message] := by
          rw [lastCalls, closing]
          rfl
        -- an answer without a completion: finish is refused, and the session then gives the scan up
        have refused := run_finish_open latency calls held unfinished
        have quiet := run_quiet latency calls [.finish tag] (by simp [abandoning])
        have abandoned := run_abandon latency (calls ++ [.finish tag]) (refused.symm ▸ held)
          (WalkerError.incomplete tag).message
        rw [refused, quiet] at abandoned
        rw [last, ← List.append_assoc, ← late closing]
        exact abandoned

theorem cardinality_removes (walker : Walker ω) (type : HeapClass) {max : Int} {bound : UInt32}
    (normalized : normalizeBound max = .ok bound) (session : Session ω) :
    let tag := session.census.registry.nextTag
    let recording := (record (fun _ => false) (walker.scan type tag bound) session.world).1
    let now := session.census.clock
    let heard := (session.census.registry.begin type now).2.receiveAll now recording.events
    ∃ report after entry, (cardinality walker type max).perform session = (.ok report, after) ∧
      after.census.registry = heard.remove tag ∧ heard.entryAt tag = some entry ∧
      entry.isComplete = decide (.completed tag ∈ recording.events) := by
  intro tag recording now heard
  let begun := session.setRegistry (session.census.registry.begin type now).2
  let recorded := record (fun _ => false) (walker.scan type tag bound) begun.world
  let told := begun.heard recorded.1.events recorded.2
  have agrees : Agrees (some (Account.fresh type)) (begun.census.registry.entryAt tag) := by
    change Agrees _ ((session.census.registry.begin type now).2.entryAt tag)
    rw [entry_begin, if_pos rfl]
    exact matches_fresh type now
  obtain ⟨entry, held, matched⟩ := agrees_held (receive_all_agrees agrees now recorded.1.events)
  obtain ⟨report, concluded, _⟩ := conclude_reports told recorded.1 held matched
  have accepted : (ofExcept (normalizeBound max) : Query ω UInt32).perform session = (.ok bound, session) := by
    rw [normalized]
    rfl
  refine ⟨report, told.setRegistry (told.census.registry.remove tag), entry, ?_, rfl, held, matched.complete⟩
  rw [cardinality_eq, perform_ok accepted, ← concluded]
  exact perform_ok (run_scan walker type tag bound begun)

theorem cardinality_calls (latency : Latency) (calls : List Call) (walker : Walker ω) (type : HeapClass)
    {max : Int} (nonneg : 0 ≤ max) (session : Session ω)
    (reached : session.census.registry = (run latency calls).2) :
    ∃ bound report after, normalizeBound max = .ok bound ∧
      (cardinality walker type max).perform session = (.ok report, after) ∧
      let tag := session.census.registry.nextTag
      let recording := (record (fun _ => false) (walker.scan type tag bound) session.world).1
      let later := run latency (calls ++ scanCalls type session.census.clock tag recording)
      after.census.registry = later.2 ∧
        across abandonedLate later.1 =
          across abandonedLate (run latency calls).1 + if FailsLate tag recording then 1 else 0 := by
  obtain ⟨bound, normalized⟩ := normalize_bound_ok nonneg
  obtain ⟨report, after, entry, performed, removed, held, complete⟩ :=
    cardinality_removes walker type normalized session
  refine ⟨bound, report, after, normalized, performed, ?_⟩
  intro tag recording later
  obtain ⟨heard, quiet⟩ := run_reported latency calls type session.census.clock recording.events
  rw [← reached] at heard
  have last := run_last_calls latency (calls ++ .begin type session.census.clock :: recording.events.map
    (callOf session.census.clock)) recording (heard ▸ held) complete
  rw [heard, quiet, List.append_assoc] at last
  exact ⟨removed.trans last.1.symm, last.2⟩

/-- With fewer than 2^64 tags no scan is displaced, so what was counted without a report is the scans that
were abandoned when they were complete. -/
theorem latencies_of_complete_scans (latency : Latency) (calls : List Call) :
    LatenciesKept latency (run latency calls).1 (run latency calls).2 ∧
      ∀ {ω : Type} (walker : Walker ω) (type : HeapClass) (max : Int) (session : Session ω),
        session.census.registry = (run latency calls).2 → 0 ≤ max →
        ∃ bound report after, normalizeBound max = .ok bound ∧
          (cardinality walker type max).perform session = (.ok report, after) ∧
          let tag := session.census.registry.nextTag
          let recording := (record (fun _ => false) (walker.scan type tag bound) session.world).1
          let later := run latency (calls ++ scanCalls type session.census.clock tag recording)
          after.census.registry = later.2 ∧ LatenciesKept latency later.1 later.2 ∧
            across abandonedLate later.1 =
              across abandonedLate (run latency calls).1 + if FailsLate tag recording then 1 else 0 := by
  refine ⟨reached_latencies (run_reached latency calls), fun walker type max session reached nonneg => ?_⟩
  obtain ⟨bound, report, after, normalized, performed, same, late⟩ :=
    cardinality_calls latency calls walker type nonneg session reached
  exact ⟨bound, report, after, normalized, performed, same, reached_latencies (run_reached latency _), late⟩

theorem failed_scan_latency_kept :
    let base := HeapClass.concrete ⟨12⟩ "com.acme.Base" none
    let steps : List ScanStep :=
      [⟨.visit (some ⟨⟨7⟩, base⟩), 0, 1⟩, ⟨.complete, 0, 1⟩, ⟨.stop (.error (.fault "cut off")), 0, 1⟩]
    let walker := Rehearsal.walker SyntheticHeap.walker
    let latency := Latency.empty 4 (by decide)
    let session : Session (Rehearsal SyntheticHeap) :=
      ⟨Census.idle latency, ⟨SyntheticHeap.new, { scan := some steps }⟩⟩
    session.census.registry = (run latency []).2 ∧ (0 : Int) ≤ 0 ∧
      ∃ report after, (cardinality walker base 0).perform session = (.ok report, after) ∧
        let tag := session.census.registry.nextTag
        let recording := (record (fun _ => false) (walker.scan base tag unbounded) session.world).1
        let later := run latency (scanCalls base session.census.clock tag recording)
        FailsLate tag recording ∧ LatenciesKept latency later.1 later.2 ∧ across abandonedLate later.1 = 1 ∧
          after.inFlight = 0 ∧ after.latencyStats.count = 1 := by
  intro base steps walker latency session
  have reached : session.census.registry = (run latency []).2 := rfl
  have nonneg : (0 : Int) ≤ 0 := by decide
  obtain ⟨bound, report, after, normalized, performed, same, kept, late⟩ :=
    (latencies_of_complete_scans latency []).2 walker base 0 session reached nonneg
  obtain rfl : unbounded = bound := Except.ok.inj normalized
  refine ⟨reached, nonneg, report, after, performed, by decide, kept, late.trans (by decide), ?_, ?_⟩
  · exact (congrArg Registry.inFlight same).trans rfl
  · exact (congrArg (·.latency.count) same).trans rfl

theorem abandoned_scan_timed :
    let base := HeapClass.concrete ⟨12⟩ "com.acme.Base" none
    let latency := Latency.empty 4 (by decide)
    let state := run latency [.begin base 0, .complete ⟨1⟩ 5000000, .abandon ⟨1⟩ "Walker fault: cut off"]
    state.2.inFlight = 0 ∧ across finishes state.1 = 0 ∧ state.2.latency.count = 1 ∧
      ¬ OnlyFinishedTimed latency state.1 state.2 := by
  refine ⟨rfl, rfl, rfl, ?_⟩
  unfold OnlyFinishedTimed
  decide

end Query

end HeapCensus
