import HeapCensus.Census.ByName
import HeapCensus.Observation
import HeapCensus.Rehearsal
import HeapCensus.SyntheticHeap
import HeapCensus.Proofs.Query
import HeapCensus.Proofs.ScanHistory

set_option autoImplicit false

namespace HeapCensus

namespace ScanEvent

def objectAt? (tag : Tag) : ScanEvent → Option HeapObject
  | .visited named object => if named = tag then object else none
  | _ => none

def faultAt? (tag : Tag) : ScanEvent → Option String
  | .fault named message => if named = tag then some message else none
  | _ => none

def visits (tag : Tag) (events : List ScanEvent) : List HeapObject :=
  (events.takeWhile fun event => event ≠ .completed tag).filterMap (objectAt? tag)

def faults (tag : Tag) (events : List ScanEvent) : List String := events.filterMap (faultAt? tag)

theorem visits_cons (tag : Tag) (event : ScanEvent) (events : List ScanEvent) :
    visits tag (event :: events) =
      if event = .completed tag then [] else (event.objectAt? tag).toList ++ visits tag events := by
  by_cases closing : event = .completed tag
  · simp [visits, closing]
  · cases named : event.objectAt? tag <;> simp [visits, closing, named]

theorem faults_cons (tag : Tag) (event : ScanEvent) (events : List ScanEvent) :
    faults tag (event :: events) = (event.faultAt? tag).toList ++ faults tag events := by
  cases named : event.faultAt? tag <;> simp [faults, named]

end ScanEvent

namespace Recording

/-- The walker says that all is well, and the scan's own completion has arrived. -/
def Succeeds (tag : Tag) (recording : Recording) : Prop :=
  recording.outcome = .ok () ∧ .completed tag ∈ recording.events

def closing (tag : Tag) (recording : Recording) : Option String :=
  match recording.outcome with
  | .ok () =>
      if .completed tag ∈ recording.events then none else some (WalkerError.incomplete tag).message
  | .error (.error cause) => some cause.message
  | .error (.panic payload) => some (panicReport payload)

theorem closing_eq_none_iff (tag : Tag) (recording : Recording) :
    recording.closing tag = none ↔ recording.Succeeds tag := by
  obtain ⟨outcome, events⟩ := recording
  cases outcome with
  | ok value =>
      by_cases completed : .completed tag ∈ events <;> simp [closing, Succeeds, completed]
  | error failure =>
      cases failure with
      | error cause => simp [closing, Succeeds]
      | panic payload => simp [closing, Succeeds]

end Recording

namespace Registry

def receive (now : Nat) (registry : Registry) : ScanEvent → Registry
  | .visited tag object => registry.visit tag object
  | .completed tag => registry.complete tag now
  | .fault tag message => registry.fault tag message

def receiveAll (now : Nat) (registry : Registry) (events : List ScanEvent) : Registry :=
  events.foldl (receive now) registry

namespace Account

def hear (tag : Tag) (account : Account) : ScanEvent → Account
  | .visited named (some object) => if tag = named then account.count object else account
  | .visited _ none => account
  | .completed named => if tag = named then account.close else account
  | .fault named message => if tag = named then account.note message else account

def after (tag : Tag) (events : List ScanEvent) (account : Account) : Account where
  target := account.target
  complete := account.complete || decide (ScanEvent.completed tag ∈ events)
  counted := account.counted ++ if account.complete then [] else ScanEvent.visits tag events
  faults := account.faults ++ ScanEvent.faults tag events

theorem hear_all (tag : Tag) (events : List ScanEvent) (account : Account) :
    events.foldl (hear tag) account = account.after tag events := by
  induction events generalizing account with
  | nil => simp [after, ScanEvent.visits, ScanEvent.faults]
  | cons event events ih =>
      rw [List.foldl_cons, ih]
      cases event with
      | visited named object =>
          cases object with
          | none =>
              have empty : (ScanEvent.visited named none).objectAt? tag = none := by
                simp [ScanEvent.objectAt?]
              change account.after tag events = _
              simp [after, empty, ScanEvent.visits_cons, ScanEvent.faults_cons, ScanEvent.faultAt?]
          | some object =>
              by_cases same : tag = named
              · cases closed : account.complete <;>
                  simp [hear, after, count, same, closed, ScanEvent.visits_cons, ScanEvent.faults_cons,
                    ScanEvent.objectAt?, ScanEvent.faultAt?]
              · have other : named ≠ tag := fun equal => same equal.symm
                simp [hear, after, same, other, ScanEvent.visits_cons, ScanEvent.faults_cons,
                  ScanEvent.objectAt?, ScanEvent.faultAt?]
      | completed named =>
          by_cases same : tag = named
          · simp [hear, after, close, same, ScanEvent.visits_cons, ScanEvent.faults_cons,
              ScanEvent.faultAt?]
          · have other : named ≠ tag := fun equal => same equal.symm
            simp [hear, after, same, other, ScanEvent.visits_cons, ScanEvent.faults_cons,
              ScanEvent.objectAt?, ScanEvent.faultAt?]
      | fault named message =>
          by_cases same : tag = named
          · simp [hear, after, note, same, ScanEvent.visits_cons, ScanEvent.faults_cons,
              ScanEvent.objectAt?, ScanEvent.faultAt?]
          · have other : named ≠ tag := fun equal => same equal.symm
            simp [hear, after, same, other, ScanEvent.visits_cons, ScanEvent.faults_cons,
              ScanEvent.objectAt?, ScanEvent.faultAt?]

end Account

theorem receive_agrees {registry : Registry} {tag : Tag} {account : Account}
    (agrees : Agrees (some account) (registry.entryAt tag)) (now : Nat) (event : ScanEvent) :
    Agrees (some (account.hear tag event)) ((registry.receive now event).entryAt tag) := by
  cases event with
  | visited named object =>
      cases object with
      | none => exact agrees
      | some object =>
          simp only [receive, entry_visit, Account.hear, apply_ite some]
          apply agrees_at
          · exact agrees_map agrees _ _ (matches_count object)
          · exact agrees
  | completed named =>
      simp only [receive, entry_complete, Account.hear, apply_ite some]
      apply agrees_at
      · exact agrees_map agrees _ _ (matches_close now)
      · exact agrees
  | fault named message =>
      simp only [receive, entry_fault, Account.hear, apply_ite some]
      apply agrees_at
      · exact agrees_map agrees _ _ (matches_note message)
      · exact agrees

theorem receive_all_agrees {registry : Registry} {tag : Tag} {account : Account}
    (agrees : Agrees (some account) (registry.entryAt tag)) (now : Nat) (events : List ScanEvent) :
    Agrees (some (account.after tag events)) ((registry.receiveAll now events).entryAt tag) := by
  rw [← Account.hear_all]
  induction events generalizing registry account with
  | nil => exact agrees
  | cons event events ih => exact ih (receive_agrees agrees now event)

theorem in_flight_receive (registry : Registry) (now : Nat) (event : ScanEvent) :
    (registry.receive now event).inFlight = registry.inFlight := by
  cases event with
  | visited tag object =>
      cases object with
      | none => rfl
      | some object =>
          cases held : registry.entryAt tag with
          | none =>
              rw [receive, visit_absent held]
              rfl
          | some entry =>
              cases closed : entry.isComplete with
              | true =>
                  rw [receive, visit_closed held closed]
                  rfl
              | false =>
                  rw [receive, visit_open held closed]
                  exact in_flight_replace registry tag _
  | completed tag =>
      cases held : registry.entryAt tag with
      | none =>
          rw [receive, complete_absent held]
          rfl
      | some entry =>
          cases closed : entry.isComplete with
          | true => rw [receive, complete_closed held closed]
          | false =>
              rw [receive, complete_open held closed]
              exact in_flight_replace registry tag _
  | fault tag message =>
      cases held : registry.entryAt tag with
      | none =>
          rw [receive, fault_absent held]
          rfl
      | some entry =>
          rw [receive, fault_held held]
          exact in_flight_replace registry tag _

theorem in_flight_receive_all (registry : Registry) (now : Nat) (events : List ScanEvent) :
    (registry.receiveAll now events).inFlight = registry.inFlight := by
  induction events generalizing registry with
  | nil => rfl
  | cons event events ih => exact (ih (registry.receive now event)).trans (in_flight_receive registry now event)

end Registry

def Census.idle (latency : Latency) : Census where
  settings := CensusSettings.standard 1
  machine := Machine.ample
  registry := Registry.new latency
  resolutions := Resolutions.new CensusSettings.defaultResolutionSeconds
  clock := 0
  pacing := fun _ => []
  turns := []

/-- A machine without room for so many slots. -/
def Machine.cramped (slots : Nat) : Machine :=
  { Machine.ample with buffer := fun wanted => if wanted < slots then none else some .noRoom }

namespace Session

variable {ω : Type}

def heard (session : Session ω) (events : List ScanEvent) (world : ω) : Session ω :=
  (session.setRegistry
    (session.census.registry.receiveAll session.census.clock events)).setWorld world

end Session

namespace Query

variable {ω : Type}

theorem hear_eq (event : ScanEvent) (session : Session ω) :
    hear event session =
      (.taken, session.setRegistry (session.census.registry.receive session.census.clock event)) := by
  cases event <;> rfl

theorem run_serve {α : Type} (dialogue : Dialogue ω ScanEvent SinkReply α) (session : Session ω)
    (taken : List ScanEvent) :
    let recorded := dialogue.run (takeDown fun _ => false) taken session.world
    ∃ events, recorded.2.1 = events.reverse ++ taken ∧
      Activity.run (Activity.serve Session.world Session.setWorld hear dialogue) session =
        (recorded.1, session.heard events recorded.2.2) := by
  induction dialogue generalizing session taken with
  | stop result => exact ⟨[], rfl, rfl⟩
  | act change resume ih =>
      obtain ⟨events, same, served⟩ := ih session.world (session.setWorld (change session.world)) taken
      exact ⟨events, same, served⟩
  | call event resume ih =>
      obtain ⟨events, same, served⟩ := ih .taken
        (session.setRegistry (session.census.registry.receive session.census.clock event)) (event :: taken)
      refine ⟨event :: events, ?_, ?_⟩
      · rw [List.reverse_cons, List.append_assoc]
        exact same
      · simp only [Activity.serve, Activity.run, hear_eq]
        exact served

theorem run_scan (walker : Walker ω) (type : HeapClass) (tag : Tag) (bound : UInt32)
    (session : Session ω) :
    let recorded := record (fun _ => false) (walker.scan type tag bound) session.world
    (runScan walker type tag bound).perform session =
      (.ok recorded.1.outcome, session.heard recorded.1.events recorded.2) := by
  intro recorded
  obtain ⟨events, same, served⟩ := run_serve (walker.scan type tag bound).run session []
  have reversed : recorded.1.events = events := by
    change List.reverse _ = events
    rw [same]
    simp
  rw [runScan, perform_lift, served, reversed]
  rfl

theorem normalize_bound_ok {max : Int} (nonneg : 0 ≤ max) :
    ∃ bound, normalizeBound max = .ok bound := by
  unfold normalizeBound
  rw [if_neg (by omega)]
  split
  · exact ⟨_, rfl⟩
  · exact ⟨_, rfl⟩

/-- What a report says of a scan, told by what the walker did under the scan's tag. -/
structure Reports (tag : Tag) (type : HeapClass) (recording : Recording) (report : ScanReport) : Prop where
  named : report.tag = tag
  target : report.target = type
  amounts : ∀ id,
    report.tally.amount? id =
      if Tally.occurrences id (ScanEvent.visits tag recording.events) = 0 then none
      else some (Tally.occurrences id (ScanEvent.visits tag recording.events))
  faults : report.faults = ScanEvent.faults tag recording.events ++ (recording.closing tag).toList

theorem abandon_reports {session : Session ω} {tag : Tag} {entry : ScanEntry}
    (held : session.census.registry.entryAt tag = some entry) (reason : String) :
    (abandon tag reason : Query ω ScanReport).perform session =
      (.ok ((entry.addFault reason).report tag),
        session.setRegistry (session.census.registry.remove tag)) := by
  have removed : (register (·.abandon tag reason) : Query ω (Option ScanReport)).perform session =
      (.ok (some ((entry.addFault reason).report tag)),
        session.setRegistry (session.census.registry.remove tag)) := by
    rw [perform_register, Registry.abandon_held held]
  rw [abandon, perform_ok removed]
  rfl

def conclude (tag : Tag) : Outcome WalkerError Unit → Query ω ScanReport
  | .ok () => do
      match ← register (·.finish tag) with
      | .ok report => return report
      | .error (.notComplete _) => abandon tag (WalkerError.incomplete tag).message
      | .error cause => fail (.invariant cause)
  | .error (.error cause) => abandon tag cause.message
  | .error (.panic payload) => abandon tag (panicReport payload)

theorem cardinality_eq (walker : Walker ω) (type : HeapClass) (max : Int) :
    cardinality walker type max = (do
      let bound ← ofExcept (normalizeBound max)
      let now ← look (·.census.clock)
      let tag ← register (·.begin type now)
      let outcome ← runScan walker type tag bound
      conclude tag outcome) := rfl

theorem conclude_reports (session : Session ω) {tag : Tag} {type : HeapClass} {entry : ScanEntry}
    (recording : Recording) (held : session.census.registry.entryAt tag = some entry)
    (matched : Registry.Matches ((Registry.Account.fresh type).after tag recording.events) entry) :
    ∃ report, (conclude tag recording.outcome).perform session =
        (.ok report, session.setRegistry (session.census.registry.remove tag)) ∧
      Reports tag type recording report := by
  have target : entry.target = type := matched.target
  have tally : entry.tally = Tally.ofObjects (ScanEvent.visits tag recording.events) := matched.tally
  have faults : entry.faults = ScanEvent.faults tag recording.events := matched.faults
  have complete : entry.isComplete = decide (ScanEvent.completed tag ∈ recording.events) := matched.complete
  have amounts := Tally.amount_of_objects (ScanEvent.visits tag recording.events)
  have abandoned : ∀ reason, recording.closing tag = some reason →
      Reports tag type recording ((entry.addFault reason).report tag) := by
    intro reason closing
    refine ⟨rfl, target, fun id => ?_, ?_⟩
    · change entry.tally.amount? id = _
      rw [tally]
      exact amounts id
    · change entry.faults ++ [reason] = _
      rw [faults, closing]
      rfl
  -- Only a completion under the tag and an ok together end the scan; all else abandons it with a reason.
  obtain ⟨outcome, events⟩ := recording
  cases outcome with
  | error failure =>
      cases failure with
      | error cause => exact ⟨_, abandon_reports held _, abandoned _ rfl⟩
      | panic payload => exact ⟨_, abandon_reports held _, abandoned _ rfl⟩
  | ok value =>
      by_cases completed : ScanEvent.completed tag ∈ events
      · have closed : entry.isComplete = true := by simpa [completed] using complete
        have finished : (register (·.finish tag) : Query ω _).perform session =
            (.ok (.ok (entry.report tag)), session.setRegistry (session.census.registry.remove tag)) := by
          rw [perform_register, Registry.finish_closed held closed]
        refine ⟨entry.report tag, ?_, rfl, target, fun id => ?_, ?_⟩
        · rw [conclude, perform_ok finished]
          rfl
        · change entry.tally.amount? id = _
          rw [tally]
          exact amounts id
        · change entry.faults = _
          simp [faults, Recording.closing, completed]
      · have unfinished : entry.isComplete = false := by simpa [completed] using complete
        have refused : (register (·.finish tag) : Query ω _).perform session =
            (.ok (.error (.notComplete tag)), session.setRegistry session.census.registry) := by
          rw [perform_register, Registry.finish_open held unfinished]
        refine ⟨_, ?_, abandoned (WalkerError.incomplete tag).message ?_⟩
        · rw [conclude, perform_ok refused]
          exact abandon_reports held _
        · simp [Recording.closing, completed]

/-- As long as tags are left, every registry that scans lead to is as the hypothesis says. -/
theorem cardinality_reports (walker : Walker ω) (type : HeapClass) (max : Int) (session : Session ω)
    (amount : Nat) (issued : Registry.Issued amount session.census.registry)
    (room : amount + 1 < UInt64.size) (nonneg : 0 ≤ max) :
    ∃ bound report after, normalizeBound max = .ok bound ∧
      (cardinality walker type max).perform session = (.ok report, after) ∧
      after.inFlight = session.inFlight ∧
      let tag := session.census.registry.nextTag
      let recording := (record (fun _ => false) (walker.scan type tag bound) session.world).1
      Reports tag type recording report ∧
        (recording.closing tag = none ↔ recording.Succeeds tag) ∧
        (report.faults = [] → recording.Succeeds tag) := by
  obtain ⟨bound, normalized⟩ := normalize_bound_ok nonneg
  let registry := session.census.registry
  let tag := registry.nextTag
  let begun := session.setRegistry (registry.begin type session.census.clock).2
  let recorded := record (fun _ => false) (walker.scan type tag bound) begun.world
  let heard := begun.heard recorded.1.events recorded.2
  have agrees : Registry.Agrees (some (Registry.Account.fresh type)) (begun.census.registry.entryAt tag) := by
    change Registry.Agrees _ ((registry.begin type session.census.clock).2.entryAt tag)
    rw [Registry.entry_begin, if_pos rfl]
    exact Registry.matches_fresh type session.census.clock
  obtain ⟨entry, held, matched⟩ := Registry.agrees_held
    (Registry.receive_all_agrees agrees begun.census.clock recorded.1.events)
  obtain ⟨report, concluded, reports⟩ :=
    conclude_reports heard recorded.1 held matched
  have performed : (cardinality walker type max).perform session =
      (.ok report, heard.setRegistry (heard.census.registry.remove tag)) := by
    have accepted : (ofExcept (normalizeBound max) : Query ω UInt32).perform session = (.ok bound, session) := by
      rw [normalized]
      rfl
    rw [cardinality_eq, perform_ok accepted, ← concluded]
    exact perform_ok (run_scan walker type tag bound begun)
  have inFlight : (heard.census.registry.remove tag).inFlight = registry.inFlight := by
    have removed := Registry.in_flight_remove held
    have received := Registry.in_flight_receive_all begun.census.registry begun.census.clock
      recorded.1.events
    have opened := Registry.in_flight_begin registry type session.census.clock
      (Registry.next_tag_free issued room)
    exact Nat.succ.inj (removed.trans (received.trans opened))
  refine ⟨bound, report, _, normalized, performed, inFlight, reports,
    Recording.closing_eq_none_iff tag _, fun clean => ?_⟩
  rw [reports.faults] at clean
  have silent := (List.append_eq_nil_iff.mp clean).2
  exact (Recording.closing_eq_none_iff tag _).mp (Option.toList_eq_nil_iff.mp silent)

theorem rehearsed_cardinality_reports :
    let base := HeapClass.concrete ⟨12⟩ "com.acme.Base" none
    let steps : List ScanStep :=
      [⟨.visit (some ⟨⟨7⟩, base⟩), 0, 3⟩, ⟨.fault "slot 4", 0, 1⟩, ⟨.visit (some ⟨⟨8⟩, base⟩), 5, 1⟩,
       ⟨.complete, 0, 2⟩, ⟨.visit (some ⟨⟨9⟩, base⟩), 0, 1⟩, ⟨.stop (.panic .value), 0, 1⟩]
    let walker := Rehearsal.walker SyntheticHeap.walker
    let census := Census.idle (Latency.empty 4 (by decide))
    let session : Session (Rehearsal SyntheticHeap) := ⟨census, ⟨SyntheticHeap.new, { scan := some steps }⟩⟩
    Registry.Issued 0 session.census.registry ∧ 0 + 1 < UInt64.size ∧ (0 : Int) ≤ 3 ∧
      ∃ bound report after, normalizeBound 3 = .ok bound ∧
        (cardinality walker base 3).perform session = (.ok report, after) ∧
        after.inFlight = session.inFlight ∧
        let tag := session.census.registry.nextTag
        let recording := (record (fun _ => false) (walker.scan base tag bound) session.world).1
        Reports tag base recording report ∧
          (recording.closing tag = none ↔ recording.Succeeds tag) ∧
          (report.faults = [] → recording.Succeeds tag) := by
  intro base steps walker census session
  have issued : Registry.Issued 0 session.census.registry := Registry.issued_new _
  have room : 0 + 1 < UInt64.size := by decide
  have nonneg : (0 : Int) ≤ 3 := by decide
  exact ⟨issued, room, nonneg, cardinality_reports walker base 3 session 0 issued room nonneg⟩

end Query

end HeapCensus
