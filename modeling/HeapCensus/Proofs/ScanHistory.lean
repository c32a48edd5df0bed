import HeapCensus.Proofs.Registry
import HeapCensus.Proofs.Tally

set_option autoImplicit false

namespace HeapCensus.Registry

inductive Call where
  | begin (target : HeapClass) (now : Nat)
  | visit (tag : Tag) (object : Option HeapObject)
  | complete (tag : Tag) (now : Nat)
  | fault (tag : Tag) (message : String)
  | finish (tag : Tag)
  | abandon (tag : Tag) (reason : String)
  -- What the queries do that are no scans.
  | takeTag

inductive Reply where
  | done
  | issued (tag : Tag)
  | finished (outcome : Except RegistryError ScanReport)
  | abandoned (report : Option ScanReport)

def perform (registry : Registry) : Call → Reply × Registry
  | .begin target now => (.issued (registry.begin target now).1, (registry.begin target now).2)
  | .visit tag object => (.done, registry.visit tag object)
  | .complete tag now => (.done, registry.complete tag now)
  | .fault tag message => (.done, registry.fault tag message)
  | .finish tag => (.finished (registry.finish tag).1, (registry.finish tag).2)
  | .abandon tag reason =>
      (.abandoned (registry.abandon tag reason).1, (registry.abandon tag reason).2)
  | .takeTag => (.issued registry.takeTag.1, registry.takeTag.2)

abbrev Event := Call × Reply

abbrev History := List Event

inductive Reached (latency : Latency) : History → Registry → Prop
  | new : Reached latency [] (new latency)
  | call (past : History) (registry : Registry) (call : Call) :
      Reached latency past registry →
      Reached latency ((call, (registry.perform call).1) :: past) (registry.perform call).2

def run (latency : Latency) (calls : List Call) : History × Registry :=
  calls.foldl (fun state call =>
    ((call, (state.2.perform call).1) :: state.1, (state.2.perform call).2)) ([], new latency)

theorem run_reached (latency : Latency) (calls : List Call) :
    Reached latency (run latency calls).1 (run latency calls).2 := by
  induction calls using List.reverseRecOn with
  | nil => exact .new
  | append_singleton calls call ih =>
      rw [run, List.foldl_append]
      exact .call _ _ call ih

structure Account where
  target : HeapClass
  complete : Bool
  counted : List HeapObject
  faults : List String

namespace Account

def fresh (target : HeapClass) : Account := ⟨target, false, [], []⟩

def count (object : HeapObject) (account : Account) : Account :=
  if account.complete then account else { account with counted := account.counted ++ [object] }

def close (account : Account) : Account := { account with complete := true }

def note (message : String) (account : Account) : Account :=
  { account with faults := account.faults ++ [message] }

end Account

/-- What the calls under a tag have made of it since the tag was last issued to a scan, none when no scan is
open under it. Calls and replies alone decide this, not the registry. -/
def account (tag : Tag) : History → Option Account
  | [] => none
  | event :: past =>
      match event with
      | (.begin target _, .issued given) =>
          if tag = given then some (Account.fresh target) else account tag past
      | (.visit named (some object), _) =>
          if tag = named then (account tag past).map (Account.count object) else account tag past
      | (.complete named _, _) =>
          if tag = named then (account tag past).map Account.close else account tag past
      | (.fault named message, _) =>
          if tag = named then (account tag past).map (Account.note message) else account tag past
      | (.finish named, .finished (.ok _)) => if tag = named then none else account tag past
      | (.abandon named _, .abandoned (some _)) => if tag = named then none else account tag past
      | _ => account tag past

structure Matches (account : Account) (entry : ScanEntry) : Prop where
  target : entry.target = account.target
  complete : entry.isComplete = account.complete
  tally : entry.tally = Tally.ofObjects account.counted
  faults : entry.faults = account.faults

def Agrees : Option Account → Option ScanEntry → Prop
  | none, none => True
  | some account, some entry => Matches account entry
  | _, _ => False

def Follows (past : History) (registry : Registry) : Prop :=
  ∀ tag, Agrees (account tag past) (registry.entryAt tag)

theorem agrees_map {before : Option Account} {entry : Option ScanEntry} (agrees : Agrees before entry)
    (note : Account → Account) (change : ScanEntry → ScanEntry)
    (kept : ∀ account entry, Matches account entry → Matches (note account) (change entry)) :
    Agrees (before.map note) (entry.map change) := by
  cases before with
  | none =>
      cases entry with
      | none => trivial
      | some entry => exact agrees
  | some account =>
      cases entry with
      | none => exact agrees
      | some entry => exact kept account entry agrees

theorem agrees_none {before : Option Account} (agrees : Agrees before none) : before = none := by
  cases before with
  | none => rfl
  | some account => exact agrees.elim

theorem agrees_some {before : Option Account} {entry : ScanEntry} (agrees : Agrees before (some entry)) :
    ∃ account, before = some account ∧ Matches account entry := by
  cases before with
  | none => exact agrees.elim
  | some account => exact ⟨account, rfl, agrees⟩

theorem agrees_held {account : Account} {entry : Option ScanEntry} (agrees : Agrees (some account) entry) :
    ∃ held, entry = some held ∧ Matches account held := by
  cases entry with
  | none => exact agrees.elim
  | some held => exact ⟨held, rfl, agrees⟩

theorem agrees_at {tag named : Tag} {changed kept : Option Account} {next held : Option ScanEntry}
    (here : Agrees changed next) (elsewhere : Agrees kept held) :
    Agrees (if tag = named then changed else kept) (if tag = named then next else held) := by
  by_cases same : tag = named
  · rw [if_pos same, if_pos same]
    exact here
  · rw [if_neg same, if_neg same]
    exact elsewhere

theorem matches_fresh (target : HeapClass) (now : Nat) :
    Matches (Account.fresh target) (ScanEntry.fresh target now) :=
  ⟨rfl, rfl, rfl, rfl⟩

theorem matches_count (object : HeapObject) (account : Account) (entry : ScanEntry)
    (matched : Matches account entry) : Matches (account.count object) (entry.visited object) := by
  have same := matched.complete
  cases closed : account.complete with
  | true =>
      have unchanged : entry.visited object = entry := by
        simp [ScanEntry.visited, same, closed]
      have untouched : account.count object = account := by simp [Account.count, closed]
      rw [unchanged, untouched]
      exact matched
  | false =>
      have counted : entry.visited object = entry.count object := by
        simp [ScanEntry.visited, same, closed]
      have noted : account.count object = { account with counted := account.counted ++ [object] } := by
        simp [Account.count, closed]
      rw [counted, noted]
      refine ⟨matched.target, matched.complete, ?_, matched.faults⟩
      rw [Tally.of_objects_append, ← matched.tally]
      rfl

theorem matches_close (now : Nat) (account : Account) (entry : ScanEntry)
    (matched : Matches account entry) : Matches account.close (entry.completed now) := by
  refine ⟨?_, ScanEntry.completed_complete entry now, ?_, ?_⟩
  · rw [ScanEntry.completed_target]
    exact matched.target
  · rw [ScanEntry.completed_tally]
    exact matched.tally
  · rw [ScanEntry.completed_faults]
    exact matched.faults

theorem matches_note (message : String) (account : Account) (entry : ScanEntry)
    (matched : Matches account entry) : Matches (account.note message) (entry.addFault message) := by
  refine ⟨matched.target, matched.complete, matched.tally, ?_⟩
  change entry.faults ++ [message] = account.faults ++ [message]
  rw [matched.faults]

theorem follows_perform {past : History} {registry : Registry} (follows : Follows past registry)
    (call : Call) :
    Follows ((call, (registry.perform call).1) :: past) (registry.perform call).2 := by
  intro tag
  have before := follows tag
  -- A call changes the account and the entry of the tag that it names alike, and no others.
  cases call with
  | begin target now =>
      change Agrees (if tag = registry.nextTag then some (Account.fresh target) else account tag past)
        ((registry.begin target now).2.entryAt tag)
      rw [entry_begin]
      apply agrees_at
      · exact matches_fresh target now
      · exact before
  | visit named object =>
      cases object with
      | none => exact before
      | some object =>
          change Agrees (if tag = named then (account tag past).map (Account.count object) else account tag past)
            ((registry.visit named (some object)).entryAt tag)
          rw [entry_visit]
          apply agrees_at
          · exact agrees_map before _ _ (matches_count object)
          · exact before
  | complete named now =>
      change Agrees (if tag = named then (account tag past).map Account.close else account tag past)
        ((registry.complete named now).entryAt tag)
      rw [entry_complete]
      apply agrees_at
      · exact agrees_map before _ _ (matches_close now)
      · exact before
  | fault named message =>
      change Agrees (if tag = named then (account tag past).map (Account.note message) else account tag past)
        ((registry.fault named message).entryAt tag)
      rw [entry_fault]
      apply agrees_at
      · exact agrees_map before _ _ (matches_note message)
      · exact before
  | finish named =>
      cases held : registry.entryAt named with
      | none =>
          simp only [perform, finish_absent held]
          exact before
      | some entry =>
          cases closed : entry.isComplete with
          | false =>
              simp only [perform, finish_open held closed]
              exact before
          | true =>
              simp only [perform, finish_closed held closed]
              change Agrees (if tag = named then none else account tag past) ((registry.remove named).entryAt tag)
              rw [entry_remove]
              exact agrees_at trivial before
  | abandon named reason =>
      cases held : registry.entryAt named with
      | none =>
          simp only [perform, abandon_absent held]
          exact before
      | some entry =>
          simp only [perform, abandon_held held]
          change Agrees (if tag = named then none else account tag past) ((registry.remove named).entryAt tag)
          rw [entry_remove]
          exact agrees_at trivial before
  | takeTag => exact before

theorem reached_follows {latency : Latency} {past : History} {registry : Registry}
    (reached : Reached latency past registry) : Follows past registry := by
  induction reached with
  | new => exact fun _ => trivial
  | call past registry call _ ih => exact follows_perform ih call

def across (measure : Event → History → Nat) : History → Nat
  | [] => 0
  | event :: past => across measure past + measure event past

def tagsIssued : Event → History → Nat
  | (.begin _ _, _), _ => 1
  | (.takeTag, _), _ => 1
  | _, _ => 0

def visits : Event → History → Nat
  | (.visit _ (some _), _), _ => 1
  | _, _ => 0

def lost : Event → History → Nat
  | (.visit tag (some _), _), past => if (account tag past).all Account.complete then 1 else 0
  | _, _ => 0

def unheard : Event → History → Nat
  | (.complete tag _, _), past => if (account tag past).isNone then 1 else 0
  | (.fault tag _, _), past => if (account tag past).isNone then 1 else 0
  | _, _ => 0

def firstCompletions : Event → History → Nat
  | (.complete tag _, _), past => if (account tag past).any (!·.complete) then 1 else 0
  | _, _ => 0

def report? : Event → Option ScanReport
  | (_, .finished (.ok report)) => some report
  | (_, .abandoned (some report)) => some report
  | _ => none

def reported (event : Event) (_ : History) : Nat := ((report? event).map (·.tally.sum)).getD 0

/-- The scan that loses its place when its tag is issued again. -/
def displaced? : Event → History → Option Account
  | (.begin _ _, .issued given), past => account given past
  | _, _ => none

def displaced (event : Event) (past : History) : Nat :=
  ((displaced? event past).map (·.counted.length)).getD 0

def recorded (tag : Tag) : Event → History → List String
  | (.fault named message, _), past =>
      if tag = named ∧ (account tag past).isSome then [message] else []
  | (.abandon named reason, _), past =>
      if tag = named ∧ (account tag past).isSome then [reason] else []
  | _, _ => []

/-- The messages that leave the registry under a tag, with a report or with a displaced scan. -/
def surfaced (tag : Tag) : Event → History → List String
  | (.begin _ _, .issued given), past =>
      if tag = given then ((account tag past).map Account.faults).getD [] else []
  | (_, .finished (.ok report)), _ => if tag = report.tag then report.faults else []
  | (_, .abandoned (some report)), _ => if tag = report.tag then report.faults else []
  | _, _ => []

def gather (part : Event → History → List String) : History → List String
  | [] => []
  | event :: past => gather part past ++ part event past

def faultsAt (registry : Registry) (tag : Tag) : List String :=
  ((registry.entryAt tag).map ScanEntry.faults).getD []

def counted (registry : Registry) : Nat := registry.total (·.tally.sum)

inductive Step (past : History) (registry : Registry) : Event → Registry → Prop
  | began (target : HeapClass) (now : Nat) :
      Step past registry (.begin target now, .issued registry.nextTag) (registry.begin target now).2
  | passed (tag : Tag) : Step past registry (.visit tag none, .done) registry
  | lost (tag : Tag) (object : HeapObject) (closed : (account tag past).all Account.complete = true) :
      Step past registry (.visit tag (some object), .done) registry.stray
  | counted (tag : Tag) (object : HeapObject) (entry : ScanEntry) (account : Account)
      (held : registry.entryAt tag = some entry) (accounted : Registry.account tag past = some account)
      (unfinished : account.complete = false) :
      Step past registry (.visit tag (some object), .done) (registry.replace tag (entry.count object))
  | completedNone (tag : Tag) (now : Nat) (absent : account tag past = none) :
      Step past registry (.complete tag now, .done) registry.stray
  | completedAgain (tag : Tag) (now : Nat) (account : Account)
      (accounted : Registry.account tag past = some account) (closed : account.complete = true) :
      Step past registry (.complete tag now, .done) registry
  | completed (tag : Tag) (now elapsed : Nat) (entry : ScanEntry) (account : Account)
      (held : registry.entryAt tag = some entry) (accounted : Registry.account tag past = some account)
      (unfinished : account.complete = false) :
      Step past registry (.complete tag now, .done)
        { registry.replace tag (entry.completed now) with latency := registry.latency.addElapsed elapsed }
  | faultedNone (tag : Tag) (message : String) (absent : account tag past = none) :
      Step past registry (.fault tag message, .done) registry.stray
  | faulted (tag : Tag) (message : String) (entry : ScanEntry) (account : Account)
      (held : registry.entryAt tag = some entry) (accounted : Registry.account tag past = some account) :
      Step past registry (.fault tag message, .done) (registry.replace tag (entry.addFault message))
  | refused (tag : Tag) (cause : RegistryError) :
      Step past registry (.finish tag, .finished (.error cause)) registry
  | finished (tag : Tag) (entry : ScanEntry) (held : registry.entryAt tag = some entry) :
      Step past registry (.finish tag, .finished (.ok (entry.report tag))) (registry.remove tag)
  | abandonedNone (tag : Tag) (reason : String) (absent : account tag past = none) :
      Step past registry (.abandon tag reason, .abandoned none) registry
  | abandoned (tag : Tag) (reason : String) (entry : ScanEntry) (account : Account)
      (held : registry.entryAt tag = some entry) (accounted : Registry.account tag past = some account) :
      Step past registry (.abandon tag reason, .abandoned (some ((entry.addFault reason).report tag)))
        (registry.remove tag)
  | took : Step past registry (.takeTag, .issued registry.nextTag) registry.takeTag.2

theorem perform_step {past : History} {registry : Registry} (follows : Follows past registry)
    (call : Call) :
    Step past registry (call, (registry.perform call).1) (registry.perform call).2 := by
  cases call with
  | begin target now => exact .began target now
  | takeTag => exact .took
  | visit tag object =>
      cases object with
      | none => exact .passed tag
      | some object =>
          have agrees := follows tag
          cases held : registry.entryAt tag with
          | none =>
              have absent := agrees_none (held ▸ agrees)
              simp only [perform, visit_absent held]
              exact .lost tag object (by simp [absent])
          | some entry =>
              obtain ⟨account, accounted, matched⟩ := agrees_some (held ▸ agrees)
              cases closed : entry.isComplete with
              | true =>
                  simp only [perform, visit_closed held closed]
                  exact .lost tag object (by simp [accounted, ← matched.complete, closed])
              | false =>
                  simp only [perform, visit_open held closed]
                  exact .counted tag object entry account held accounted (matched.complete ▸ closed)
  | complete tag now =>
      have agrees := follows tag
      cases held : registry.entryAt tag with
      | none =>
          simp only [perform, complete_absent held]
          exact .completedNone tag now (agrees_none (held ▸ agrees))
      | some entry =>
          obtain ⟨account, accounted, matched⟩ := agrees_some (held ▸ agrees)
          cases closed : entry.isComplete with
          | true =>
              simp only [perform, complete_closed held closed]
              exact .completedAgain tag now account accounted (matched.complete ▸ closed)
          | false =>
              simp only [perform, complete_open held closed]
              exact .completed tag now _ entry account held accounted (matched.complete ▸ closed)
  | fault tag message =>
      have agrees := follows tag
      cases held : registry.entryAt tag with
      | none =>
          simp only [perform, fault_absent held]
          exact .faultedNone tag message (agrees_none (held ▸ agrees))
      | some entry =>
          obtain ⟨account, accounted, _⟩ := agrees_some (held ▸ agrees)
          simp only [perform, fault_held held]
          exact .faulted tag message entry account held accounted
  | finish tag =>
      cases held : registry.entryAt tag with
      | none =>
          simp only [perform, finish_absent held]
          exact .refused tag _
      | some entry =>
          cases closed : entry.isComplete with
          | false =>
              simp only [perform, finish_open held closed]
              exact .refused tag _
          | true =>
              simp only [perform, finish_closed held closed]
              exact .finished tag entry held
  | abandon tag reason =>
      have agrees := follows tag
      cases held : registry.entryAt tag with
      | none =>
          simp only [perform, abandon_absent held]
          exact .abandonedNone tag reason (agrees_none (held ▸ agrees))
      | some entry =>
          obtain ⟨account, accounted, _⟩ := agrees_some (held ▸ agrees)
          simp only [perform, abandon_held held]
          exact .abandoned tag reason entry account held accounted

theorem visits_balance {past : History} {registry after : Registry} {event : Event}
    (follows : Follows past registry) (step : Step past registry event after) :
    visits event past + registry.counted =
      reported event past + after.counted + lost event past + displaced event past := by
  cases step with
  | began target now =>
      have begun := total_begin (·.tally.sum) registry target now
      have gone : ((registry.entryAt registry.nextTag).map (·.tally.sum)).getD 0 =
          displaced (.begin target now, .issued registry.nextTag) past := by
        have agrees := follows registry.nextTag
        cases held : registry.entryAt registry.nextTag with
        | none => simp [displaced, displaced?, agrees_none (held ▸ agrees)]
        | some entry =>
            obtain ⟨account, accounted, matched⟩ := agrees_some (held ▸ agrees)
            simp [displaced, displaced?, accounted, matched.tally, Tally.sum_of_objects]
      simp only [gone, ScanEntry.fresh, Tally.sum_empty] at begun
      simp only [visits, reported, report?, lost, counted, Option.map_none, Option.getD_none]
      omega
  | counted tag object entry account held accounted unfinished =>
      have replaced := total_replace (·.tally.sum) registry tag entry (entry.count object) held
      simp only [ScanEntry.count, Tally.sum_add] at replaced
      simp only [visits, reported, report?, lost, accounted, unfinished, displaced, displaced?,
        counted, ScanEntry.count, Option.map_none, Option.getD_none, Option.all_some]
      simp only [Bool.false_eq_true, if_false]
      omega
  | completed tag now elapsed entry account held accounted unfinished =>
      have replaced := total_replace (·.tally.sum) registry tag entry (entry.completed now) held
      simp only [ScanEntry.completed_tally] at replaced
      change 0 + registry.counted = 0 + (registry.replace tag (entry.completed now)).counted + 0 + 0
      simp only [counted]
      omega
  | faulted tag message entry account held accounted =>
      have replaced := total_replace (·.tally.sum) registry tag entry (entry.addFault message) held
      simp only [ScanEntry.addFault] at replaced
      change 0 + registry.counted = 0 + (registry.replace tag (entry.addFault message)).counted + 0 + 0
      simp only [counted, ScanEntry.addFault]
      omega
  | finished tag entry held =>
      have removed := total_remove (·.tally.sum) registry tag entry held
      simp only [visits, reported, report?, lost, displaced, displaced?, counted, ScanEntry.report,
        Option.map_some, Option.map_none, Option.getD_some, Option.getD_none]
      omega
  | abandoned tag reason entry account held accounted =>
      have removed := total_remove (·.tally.sum) registry tag entry held
      simp only [visits, reported, report?, lost, displaced, displaced?, counted, ScanEntry.report,
        ScanEntry.addFault, Option.map_some, Option.map_none, Option.getD_some, Option.getD_none]
      omega
  | lost tag object closed =>
      change 1 + registry.counted = 0 + registry.counted + (if _ then 1 else 0) + 0
      rw [if_pos closed]
      omega
  | passed | completedNone | completedAgain | faultedNone | refused | abandonedNone | took =>
      change 0 + registry.counted = 0 + registry.counted + 0 + 0
      omega

theorem strays_step {past : History} {registry after : Registry} {event : Event}
    (step : Step past registry event after) :
    after.strays = registry.strays + lost event past + unheard event past := by
  cases step with
  | lost tag object closed => simp [stray, lost, closed, unheard]
  | counted tag object entry account held accounted unfinished =>
      simp [replace, lost, accounted, unfinished, unheard]
  | completedNone tag now absent => simp [stray, lost, unheard, absent]
  | completedAgain tag now account accounted closed => simp [lost, unheard, accounted]
  | completed tag now elapsed entry account held accounted unfinished =>
      simp [replace, lost, unheard, accounted]
  | faultedNone tag message absent => simp [stray, lost, unheard, absent]
  | faulted tag message entry account held accounted => simp [replace, lost, unheard, accounted]
  | _ => rfl

theorem latency_step {past : History} {registry after : Registry} {event : Event}
    (step : Step past registry event after) :
    after.latency.count = registry.latency.count + firstCompletions event past := by
  cases step with
  | completedNone tag now absent => simp [stray, firstCompletions, absent]
  | completedAgain tag now account accounted closed => simp [firstCompletions, accounted, closed]
  | completed tag now elapsed entry account held accounted unfinished =>
      simp [firstCompletions, accounted, unfinished, Latency.addElapsed, Latency.count_add]
  | _ => rfl

theorem faults_at_held {registry : Registry} {tag : Tag} {entry : ScanEntry}
    (held : registry.entryAt tag = some entry) : registry.faultsAt tag = entry.faults := by
  simp [faultsAt, held]

theorem faults_at_replace (registry : Registry) (tag other : Tag) (old entry : ScanEntry)
    (held : registry.entryAt tag = some old) :
    (registry.replace tag entry).faultsAt other =
      if other = tag then entry.faults else registry.faultsAt other := by
  simp only [faultsAt, entry_replace, held]
  by_cases same : other = tag <;> simp [same]

theorem faults_at_remove (registry : Registry) (tag other : Tag) :
    (registry.remove tag).faultsAt other = if other = tag then [] else registry.faultsAt other := by
  simp only [faultsAt, entry_remove]
  by_cases same : other = tag <;> simp [same]

theorem faults_step {past : History} {registry after : Registry} {event : Event}
    (follows : Follows past registry) (step : Step past registry event after) (tag : Tag) :
    registry.faultsAt tag ++ recorded tag event past =
      surfaced tag event past ++ after.faultsAt tag := by
  cases step with
  | began target now =>
      have agrees := follows tag
      have opened : (registry.begin target now).2.faultsAt tag =
          if tag = registry.nextTag then [] else registry.faultsAt tag := by
        simp only [faultsAt, entry_begin]
        by_cases same : tag = registry.nextTag <;> simp [same, ScanEntry.fresh]
      have gone : registry.faultsAt tag = ((account tag past).map Account.faults).getD [] := by
        cases held : registry.entryAt tag with
        | none => simp [faultsAt, held, agrees_none (held ▸ agrees)]
        | some entry =>
            obtain ⟨account, accounted, matched⟩ := agrees_some (held ▸ agrees)
            simp [faultsAt, held, accounted, matched.faults]
      simp only [recorded, surfaced, opened]
      by_cases same : tag = registry.nextTag
      · subst same
        simpa using gone
      · simp [same]
  | counted named object entry account held accounted unfinished =>
      rw [faults_at_replace registry named tag entry _ held]
      by_cases same : tag = named
      · subst same
        simp [recorded, surfaced, faults_at_held held, ScanEntry.count]
      · simp [recorded, surfaced, same]
  | completed named now elapsed entry account held accounted unfinished =>
      change registry.faultsAt tag ++ [] = (registry.replace named (entry.completed now)).faultsAt tag
      rw [faults_at_replace registry named tag entry _ held]
      by_cases same : tag = named
      · subst same
        simp [faults_at_held held, ScanEntry.completed_faults]
      · simp [same]
  | faulted named message entry account held accounted =>
      rw [faults_at_replace registry named tag entry _ held]
      by_cases same : tag = named
      · subst same
        simp [recorded, surfaced, faults_at_held held, ScanEntry.addFault, accounted]
      · simp [recorded, surfaced, same]
  | finished named entry held =>
      rw [faults_at_remove]
      by_cases same : tag = named
      · subst same
        simp [recorded, surfaced, faults_at_held held, ScanEntry.report]
      · simp [recorded, surfaced, ScanEntry.report, same]
  | abandoned named reason entry account held accounted =>
      rw [faults_at_remove]
      by_cases same : tag = named
      · subst same
        simp [recorded, surfaced, faults_at_held held, ScanEntry.report, ScanEntry.addFault, accounted]
      · simp [recorded, surfaced, ScanEntry.report, same]
  | completedNone | lost | passed | completedAgain | refused | took =>
      exact List.append_nil _
  | faultedNone named message absent =>
      by_cases same : tag = named
      · subst same
        simp [recorded, surfaced, absent, faultsAt]
      · simp [recorded, surfaced, same, faultsAt]
  | abandonedNone named reason absent =>
      by_cases same : tag = named
      · subst same
        simp [recorded, surfaced, absent]
      · simp [recorded, surfaced, same]

theorem issued_step {past : History} {registry after : Registry} {event : Event} {amount : Nat}
    (issued : Issued amount registry) (step : Step past registry event after)
    (room : amount + tagsIssued event past < UInt64.size) :
    Issued (amount + tagsIssued event past) after := by
  cases step with
  | began target now => exact issued_begin issued room target now
  | took => exact issued_take_tag issued room
  | counted tag object entry account held =>
      exact issued_kept issued rfl (open_before_replace held (entry.count object))
  | completed tag now elapsed entry account held =>
      exact issued_kept issued rfl (open_before_replace held (entry.completed now))
  | faulted tag message entry account held =>
      exact issued_kept issued rfl (open_before_replace held (entry.addFault message))
  | finished tag entry held => exact issued_kept issued rfl (open_before_remove registry tag)
  | abandoned tag reason entry account held =>
      exact issued_kept issued rfl (open_before_remove registry tag)
  | passed | lost | completedNone | completedAgain | faultedNone | refused | abandonedNone =>
      exact issued_kept issued rfl fun _ opened => opened

theorem reached_issued {latency : Latency} {past : History} {registry : Registry}
    (reached : Reached latency past registry) (few : across tagsIssued past < UInt64.size) :
    Issued (across tagsIssued past) registry := by
  induction reached with
  | new => exact issued_new latency
  | call past registry call reached ih =>
      have before := ih (Nat.lt_of_le_of_lt (Nat.le_add_right _ _) few)
      exact issued_step before (perform_step (reached_follows reached) call) few

theorem reached_displaces_none {latency : Latency} {past : History} {registry : Registry}
    (reached : Reached latency past registry) (few : across tagsIssued past < UInt64.size)
    (event : Event) (earlier : History) (within : (event :: earlier) <:+ past) :
    displaced? event earlier = none := by
  induction reached with
  | new => simp at within
  | call past registry call reached ih =>
      rcases List.suffix_cons_iff.mp within with same | before
      · obtain ⟨rfl, rfl⟩ := List.cons.inj same
        have follows := reached_follows reached
        cases call with
        | begin target now =>
            have issued := reached_issued reached (Nat.lt_of_le_of_lt (Nat.le_add_right _ _) few)
            have free := next_tag_free issued few
            exact agrees_none (free ▸ follows registry.nextTag)
        | visit | complete | fault | finish | abandon | takeTag => rfl
      · exact ih (Nat.lt_of_le_of_lt (Nat.le_add_right _ _) few) before

theorem across_eq_zero (measure : Event → History → Nat) (past : History)
    (zero : ∀ event earlier, (event :: earlier) <:+ past → measure event earlier = 0) :
    across measure past = 0 := by
  induction past with
  | nil => rfl
  | cons event past ih =>
      have before := ih fun other earlier within => zero other earlier (within.trans (List.suffix_cons event past))
      rw [across, before, zero event past (List.suffix_refl _)]

theorem reached_balance {latency : Latency} {past : History} {registry : Registry}
    (reached : Reached latency past registry) :
    across visits past = across reported past + registry.counted + across lost past + across displaced past ∧
      registry.strays = across lost past + across unheard past ∧
      registry.latency.count = latency.count + across firstCompletions past ∧
      ∀ tag, gather (recorded tag) past = gather (surfaced tag) past ++ registry.faultsAt tag := by
  induction reached with
  | new => exact ⟨rfl, rfl, rfl, fun tag => rfl⟩
  | call past registry call reached ih =>
      obtain ⟨visited, strays, timed, faults⟩ := ih
      have follows := reached_follows reached
      have step := perform_step follows call
      refine ⟨?_, ?_, ?_, ?_⟩
      · have balance := visits_balance follows step
        simp only [across]
        omega
      · have balance := strays_step step
        simp only [across]
        omega
      · have balance := latency_step step
        simp only [across]
        omega
      · intro tag
        have balance := faults_step follows step tag
        simp only [gather]
        rw [faults tag, List.append_assoc, balance, List.append_assoc]

/-- A begun scan can displace another one only after the tag counter has come round. The balance of visits
and faults holds even then, with what was displaced as an item of its own. -/
theorem callbacks_balance (latency : Latency) (calls : List Call) :
    let past := (run latency calls).1
    let registry := (run latency calls).2
    across visits past = across reported past + registry.counted + across lost past + across displaced past ∧
      registry.strays = across lost past + across unheard past ∧
      registry.latency.count = latency.count + across firstCompletions past ∧
      (∀ tag, gather (recorded tag) past = gather (surfaced tag) past ++ registry.faultsAt tag) ∧
      (across tagsIssued past < UInt64.size →
        across displaced past = 0 ∧
          ∀ event earlier, (event :: earlier) <:+ past → displaced? event earlier = none) := by
  have reached := run_reached latency calls
  obtain ⟨visited, strays, timed, faults⟩ := reached_balance reached
  refine ⟨visited, strays, timed, faults, fun few => ?_⟩
  have undisturbed := reached_displaces_none reached few
  refine ⟨across_eq_zero displaced _ fun event earlier within => ?_, undisturbed⟩
  simp [displaced, undisturbed event earlier within]

end HeapCensus.Registry
