import HeapCensus.Proofs.Lifecycle

set_option autoImplicit false

namespace HeapCensus

/-- Whether a duration was measured shows, but not how long it was. -/
def ScanReport.untimed (report : ScanReport) : ScanReport :=
  { report with elapsed := report.elapsed.map fun _ => 0 }

namespace Registry

namespace Call

def tag? : Call → Option Tag
  | .visit tag _ => some tag
  | .complete tag _ => some tag
  | .fault tag _ => some tag
  | .finish tag => some tag
  | .abandon tag _ => some tag
  | .begin _ _ => none
  | .takeTag => none

def untimed : Call → Call
  | .complete tag _ => .complete tag 0
  | call => call

end Call

def Reply.untimed : Reply → Reply
  | .finished (.ok report) => .finished (.ok report.untimed)
  | .abandoned report => .abandoned (report.map ScanReport.untimed)
  | reply => reply

def callsTo (tag : Tag) (calls : List Call) : List Call :=
  (calls.filter fun call => call.tag? = some tag).map Call.untimed

def repliesTo (tag : Tag) (past : History) : List Reply :=
  (past.filter fun event => event.1.tag? = some tag).map fun event => event.2.untimed

def Account.report (account : Account) (tag : Tag) : ScanReport :=
  { tag := tag
    target := account.target
    tally := Tally.ofObjects account.counted
    elapsed := if account.complete then some 0 else none
    faults := account.faults }

/-- The reply to a call that names the tag, and what the call makes of the account. -/
def answer (tag : Tag) (held : Option Account) : Call → Reply × Option Account
  | .visit _ (some object) => (.done, held.map (Account.count object))
  | .complete _ _ => (.done, held.map Account.close)
  | .fault _ message => (.done, held.map (Account.note message))
  | .finish _ =>
      match held with
      | none => (.finished (.error (.unknownTag tag)), none)
      | some account =>
          if account.complete then (.finished (.ok (account.report tag)), none)
          else (.finished (.error (.notComplete tag)), some account)
  | .abandon _ reason =>
      match held with
      | none => (.abandoned none, none)
      | some account => (.abandoned (some ((account.note reason).report tag)), none)
  | _ => (.done, held)

def answerAll (tag : Tag) (start : List Reply × Option Account) (calls : List Call) :
    List Reply × Option Account :=
  calls.foldl (fun state call =>
    ((answer tag state.2 call).1 :: state.1, (answer tag state.2 call).2)) start

theorem untimed_report {account : Account} {entry : ScanEntry} (matched : Matches account entry)
    (tag : Tag) : (entry.report tag).untimed = account.report tag := by
  have elapsed : (entry.recorded.map fun _ => 0) = if account.complete then some 0 else none := by
    rw [← matched.complete, ScanEntry.isComplete]
    cases entry.recorded with
    | none => rfl
    | some duration => rfl
  simp only [ScanReport.untimed, ScanEntry.report, Account.report, elapsed, matched.target,
    matched.tally, matched.faults]

theorem own_call {past : History} {registry : Registry} (follows : Follows past registry) (call : Call)
    {tag : Tag} (own : call.tag? = some tag) :
    answer tag (account tag past) call.untimed =
      ((registry.perform call).1.untimed, account tag ((call, (registry.perform call).1) :: past)) := by
  have agrees := follows tag
  cases call with
  | begin | takeTag => cases own
  | visit named object =>
      obtain rfl := Option.some.inj own
      cases object with
      | none => rfl
      | some object =>
          change (_, _) = (_, if named = named then _ else _)
          rw [if_pos rfl]
          rfl
  | complete named now =>
      obtain rfl := Option.some.inj own
      change (_, _) = (_, if named = named then _ else _)
      rw [if_pos rfl]
      rfl
  | fault named message =>
      obtain rfl := Option.some.inj own
      change (_, _) = (_, if named = named then _ else _)
      rw [if_pos rfl]
      rfl
  | finish named =>
      obtain rfl := Option.some.inj own
      cases held : registry.entryAt named with
      | none =>
          have absent := agrees_none (held ▸ agrees)
          simp only [perform, finish_absent held]
          simp [account, answer, Call.untimed, Reply.untimed, absent]
      | some entry =>
          obtain ⟨account, accounted, matched⟩ := agrees_some (held ▸ agrees)
          cases closed : entry.isComplete with
          | false =>
              simp only [perform, finish_open held closed]
              simp [Registry.account, answer, Call.untimed, Reply.untimed, accounted, ← matched.complete, closed]
          | true =>
              simp only [perform, finish_closed held closed]
              simp [Registry.account, answer, Call.untimed, Reply.untimed, accounted, ← matched.complete, closed,
                untimed_report matched]
  | abandon named reason =>
      obtain rfl := Option.some.inj own
      cases held : registry.entryAt named with
      | none =>
          have absent := agrees_none (held ▸ agrees)
          simp only [perform, abandon_absent held]
          simp [account, answer, Call.untimed, Reply.untimed, absent]
      | some entry =>
          obtain ⟨account, accounted, matched⟩ := agrees_some (held ▸ agrees)
          simp only [perform, abandon_held held]
          simp [Registry.account, answer, Call.untimed, Reply.untimed, accounted,
            untimed_report (matches_note reason account entry matched)]

theorem foreign_call {past : History} {event : Event} {tag : Tag} (foreign : event.1.tag? ≠ some tag)
    (unopened : begun? event ≠ some tag) : account tag (event :: past) = account tag past := by
  obtain ⟨call, reply⟩ := event
  have other : ∀ named, call.tag? = some named → tag ≠ named := by
    rintro named own rfl
    exact foreign own
  cases call with
  | begin target now =>
      cases reply with
      | issued given =>
          have differs : tag ≠ given := by
            rintro rfl
            exact unopened rfl
          exact if_neg differs
      | done | finished | abandoned => rfl
  | visit named object =>
      cases object with
      | none => rfl
      | some object => exact if_neg (other named rfl)
  | complete named now => exact if_neg (other named rfl)
  | fault named message => exact if_neg (other named rfl)
  | finish named =>
      cases reply with
      | finished outcome =>
          cases outcome with
          | ok report => exact if_neg (other named rfl)
          | error cause => rfl
      | done | issued | abandoned => rfl
  | abandon named reason =>
      cases reply with
      | abandoned report =>
          cases report with
          | some report => exact if_neg (other named rfl)
          | none => rfl
      | done | issued | finished => rfl
  | takeTag => rfl

theorem answer_all_append (tag : Tag) (start : List Reply × Option Account) (calls more : List Call) :
    answerAll tag start (calls ++ more) = answerAll tag (answerAll tag start calls) more :=
  List.foldl_append

theorem calls_to_append (tag : Tag) (calls more : List Call) :
    callsTo tag (calls ++ more) = callsTo tag calls ++ callsTo tag more := by
  simp [callsTo]

theorem replies_to_own {event : Event} {tag : Tag} (own : event.1.tag? = some tag) (past : History) :
    repliesTo tag (event :: past) = event.2.untimed :: repliesTo tag past := by
  simp [repliesTo, own]

theorem replies_to_foreign {event : Event} {tag : Tag} (foreign : event.1.tag? ≠ some tag)
    (past : History) : repliesTo tag (event :: past) = repliesTo tag past := by
  simp [repliesTo, foreign]

theorem begun_never_again {past : History} {registry : Registry} (chronicle : Chronicle past registry)
    (issued : Issued (across tagsIssued past) registry) {call : Call} {tag : Tag}
    (room : across tagsIssued ((call, (registry.perform call).1) :: past) < UInt64.size)
    (begun : tag ∈ begunTags past) : begun? (call, (registry.perform call).1) ≠ some tag := by
  intro again
  obtain ⟨rfl, one⟩ := issued_next (begun_issued again)
  rw [across, one] at room
  exact next_fresh chronicle issued room (begun_subset past begun)

theorem answers_alone (latency : Latency) (calls more : List Call) {tag : Tag}
    (live : tag ∈ begunTags (run latency calls).1)
    (few : across tagsIssued (run latency (calls ++ more)).1 < UInt64.size) :
    tag ∈ begunTags (run latency (calls ++ more)).1 ∧
      answerAll tag (repliesTo tag (run latency calls).1, account tag (run latency calls).1)
          (callsTo tag more) =
        (repliesTo tag (run latency (calls ++ more)).1, account tag (run latency (calls ++ more)).1) := by
  induction more using List.reverseRecOn with
  | nil =>
      rw [List.append_nil]
      exact ⟨live, rfl⟩
  | append_singleton more call ih =>
      have fewer := tags_issued_before few
      obtain ⟨begun, alone⟩ := ih fewer
      have reached := run_reached latency (calls ++ more)
      rw [← List.append_assoc, run_append_singleton] at few ⊢
      refine ⟨mem_filter_map_cons.mpr (.inr begun), ?_⟩
      rw [calls_to_append, answer_all_append, alone]
      by_cases own : call.tag? = some tag
      · have mine : callsTo tag [call] = [call.untimed] := by simp [callsTo, own]
        rw [mine, replies_to_own own, answerAll, List.foldl_cons, List.foldl_nil,
          own_call (reached_follows reached) call own]
      · have none : callsTo tag [call] = [] := by simp [callsTo, own]
        have unopened := begun_never_again (reached_chronicle reached fewer)
          (reached_issued reached fewer) few begun
        rw [none, replies_to_foreign own, foreign_call own unopened]
        rfl

/-- The tag is live after `calls`. Whatever other calls come in between, in whatever order, the calls that
name it are answered alike. -/
theorem replies_depend_on_own_calls (latency : Latency) (calls first second : List Call) (tag : Tag)
    (live : (run latency calls).2.entryAt tag ≠ none) (same : callsTo tag first = callsTo tag second)
    (fewFirst : across tagsIssued (run latency (calls ++ first)).1 < UInt64.size)
    (fewSecond : across tagsIssued (run latency (calls ++ second)).1 < UInt64.size) :
    repliesTo tag (run latency (calls ++ first)).1 = repliesTo tag (run latency (calls ++ second)).1 := by
  have fewer := Nat.lt_of_le_of_lt (tags_issued_le latency calls first) fewFirst
  have chronicle := reached_chronicle (run_reached latency calls) fewer
  have begun := ((chronicle.live tag).mp live).1
  have alone := (answers_alone latency calls first begun fewFirst).2
  rw [same, (answers_alone latency calls second begun fewSecond).2] at alone
  exact (congrArg Prod.fst alone).symm

theorem crowded_and_quiet_replies :
    let base := HeapClass.concrete ⟨1⟩ "com.acme.Base" none
    let latency := Latency.empty 4 (by decide)
    let calls := [Call.begin base 0, .visit ⟨1⟩ (some ⟨⟨7⟩, base⟩)]
    let quiet := [Call.fault ⟨1⟩ "slot 4", .complete ⟨1⟩ 5, .finish ⟨1⟩, .abandon ⟨1⟩ "late"]
    let crowded := [Call.begin base 1, .fault ⟨1⟩ "slot 4", .visit ⟨2⟩ (some ⟨⟨7⟩, base⟩), .complete ⟨9⟩ 2,
      .complete ⟨1⟩ 8, .finish ⟨2⟩, .finish ⟨1⟩, .takeTag, .abandon ⟨2⟩ "stuck", .abandon ⟨1⟩ "late"]
    (run latency calls).2.entryAt ⟨1⟩ ≠ none ∧ callsTo ⟨1⟩ quiet = callsTo ⟨1⟩ crowded ∧
      across tagsIssued (run latency (calls ++ quiet)).1 < UInt64.size ∧
      across tagsIssued (run latency (calls ++ crowded)).1 < UInt64.size ∧
      repliesTo ⟨1⟩ (run latency (calls ++ quiet)).1 = repliesTo ⟨1⟩ (run latency (calls ++ crowded)).1 := by
  intro base latency calls quiet crowded
  have live : (run latency calls).2.entryAt ⟨1⟩ ≠ none := by
    intro absent
    cases absent
  have same : callsTo ⟨1⟩ quiet = callsTo ⟨1⟩ crowded := rfl
  have fewQuiet : across tagsIssued (run latency (calls ++ quiet)).1 < UInt64.size := by
    change 1 < UInt64.size
    decide
  have fewCrowded : across tagsIssued (run latency (calls ++ crowded)).1 < UInt64.size := by
    change 3 < UInt64.size
    decide
  exact ⟨live, same, fewQuiet, fewCrowded,
    replies_depend_on_own_calls latency calls quiet crowded ⟨1⟩ live same fewQuiet fewCrowded⟩

end Registry

end HeapCensus
