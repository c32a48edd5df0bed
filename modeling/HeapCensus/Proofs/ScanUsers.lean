import HeapCensus.Proofs.Sharing

set_option autoImplicit false

namespace HeapCensus.Registry

def visitEach (tag : Tag) : List (Option HeapObject) → Activity Registry Unit
  | [] => pure ()
  | object :: objects => do
      Activity.step fun registry => ((), registry.visit tag object)
      visitEach tag objects

def takeTags : Nat → Activity Registry Unit
  | 0 => pure ()
  | amount + 1 => do
      let _ ← Activity.step takeTag
      takeTags amount

inductive User where
  -- Scans with what a walker visits. The clock is read when the scan is registered and completed.
  | scanner (target : HeapClass) (visits : List (Option HeapObject)) (started ended : Nat)
  -- Makes queries that are no scans, and only takes their tags.
  | taker (amount : Nat)

namespace User

abbrev Outcome := Option (Tag × Except RegistryError ScanReport)

def activity : User → Activity Registry Outcome
  | .scanner target visits started ended => do
      let tag ← Activity.step fun registry => registry.begin target started
      visitEach tag visits
      Activity.step fun registry => ((), registry.complete tag ended)
      let finished ← Activity.step fun registry => registry.finish tag
      return some (tag, finished)
  | .taker amount => do
      takeTags amount
      return none

def needed : User → Nat
  | .scanner .. => 1
  | .taker amount => amount

def isScanner : User → Bool
  | .scanner .. => true
  | .taker _ => false

def Served : User → Outcome → Prop
  | .scanner target visits _ _, outcome =>
      ∃ tag report, outcome = some (tag, .ok report) ∧ report.tag = tag ∧ report.target = target ∧
        report.faults = [] ∧ ∀ id,
          report.tally.amount? id =
            if Tally.occurrences id (visits.filterMap fun object => object) = 0 then none
            else some (Tally.occurrences id (visits.filterMap fun object => object))
  | .taker _, outcome => outcome = none

def first (user : User) : Share := ⟨user.needed, none, 0⟩

def last (user : User) : Share := ⟨0, none, if user.isScanner then 1 else 0⟩

end User

variable {before : Registry} {needed timed : Nat}

theorem keeps_take_tags (amount : Nat) :
    Activity.Keeps (Shared before) (fun own _ => own = ⟨0, none, timed⟩) (takeTags amount)
      ⟨amount, none, timed⟩ := by
  induction amount with
  | zero => rfl
  | succ amount ih =>
      refine Activity.keeps_bind (fun own _ => own = ⟨amount, none, timed⟩) ?_ _ _ ?_
      · rintro own _ rfl
        exact ih
      · refine keeps_moves fun registry owned => ⟨_, ?_, rfl⟩
        exact fun amount issued room => moves_take issued room owned

def Account.countAll (visits : List (Option HeapObject)) (account : Account) : Account :=
  { account with counted := account.counted ++ visits.filterMap fun object => object }

theorem Account.count_all_some (object : HeapObject) (visits : List (Option HeapObject))
    (account : Account) (unfinished : account.complete = false) :
    account.countAll (some object :: visits) = (account.count object).countAll visits := by
  simp [countAll, count, unfinished]

theorem keeps_visits (tag : Tag) (visits : List (Option HeapObject)) (account : Account)
    (unfinished : account.complete = false) :
    Activity.Keeps (Shared before)
      (fun own _ => own = ⟨needed, some (tag, account.countAll visits), timed⟩)
      (visitEach tag visits) ⟨needed, some (tag, account), timed⟩ := by
  induction visits generalizing account with
  | nil => simp [visitEach, pure, Activity.Keeps, Account.countAll]
  | cons object visits ih =>
      cases object with
      | none =>
          refine Activity.keeps_bind (fun own _ => own = ⟨needed, some (tag, account), timed⟩) ?_ _ _ ?_
          · rintro own _ rfl
            exact ih account unfinished
          · refine keeps_moves fun registry owned => ⟨_, ?_, rfl⟩
            exact fun amount issued _ => moves_nothing issued owned
      | some object =>
          refine Activity.keeps_bind
            (fun own _ => own = ⟨needed, some (tag, account.count object), timed⟩) ?_ _ _ ?_
          · rintro own _ rfl
            rw [Account.count_all_some object visits account unfinished]
            exact ih (account.count object) (by simp [Account.count, unfinished])
          · refine keeps_moves fun registry owned => ⟨_, ?_, rfl⟩
            exact fun amount issued _ => moves_visit object issued owned unfinished

theorem keeps_activity (user : User) :
    Activity.Keeps (Shared before) (fun own outcome => own = user.last ∧ user.Served outcome)
      user.activity user.first := by
  cases user with
  | taker amount =>
      refine Activity.keeps_bind (fun own _ => own = ⟨0, none, 0⟩) ?_ _ _ (keeps_take_tags amount)
      rintro own _ rfl
      exact ⟨rfl, rfl⟩
  | scanner target visits started ended =>
      have fresh : (Account.fresh target).complete = false := rfl
      refine Activity.keeps_bind
        (fun own tag => own = ⟨0, some (tag, Account.fresh target), 0⟩) ?_ _ _ ?_
      · rintro own tag rfl
        refine Activity.keeps_bind _ ?_ _ _ (keeps_visits tag visits (Account.fresh target) fresh)
        rintro own _ rfl
        refine Activity.keeps_bind
          (fun own _ => own = ⟨0, some (tag, ((Account.fresh target).countAll visits).close), 1⟩) ?_ _ _ ?_
        · rintro own _ rfl
          refine Activity.keeps_bind (fun own finished => own = ⟨0, none, 1⟩ ∧
            (User.scanner target visits started ended).Served (some (tag, finished))) ?_ _ _ ?_
          · rintro own finished ⟨rfl, served⟩
            exact ⟨rfl, served⟩
          · refine keeps_moves fun registry owned => ?_
            obtain ⟨entry, held, matched⟩ := owned tag _ rfl
            rw [finish_closed held matched.complete]
            refine ⟨⟨0, none, 1⟩, ?_, rfl, ?_⟩
            · exact fun amount issued _ => moves_remove issued owned
            · refine ⟨tag, entry.report tag, rfl, rfl, matched.target, matched.faults, fun id => ?_⟩
              change entry.tally.amount? id = _
              rw [matched.tally]
              exact Tally.amount_of_objects _ id
        · refine keeps_moves fun registry owned => ⟨_, ?_, rfl⟩
          exact fun amount issued _ => moves_complete ended issued owned rfl
      · refine keeps_moves fun registry owned => ⟨_, ?_, rfl⟩
        exact fun amount issued room => moves_begin target started issued room

theorem shares_last {users : List User} {ends : List (Share × User.Outcome)}
    (ended : List.Forall₂ (fun user ended => ended.1 = user.last ∧ user.Served ended.2) users ends) :
    ends.map Prod.fst = users.map User.last ∧ List.Forall₂ User.Served users (ends.map Prod.snd) := by
  induction ended with
  | nil => exact ⟨rfl, .nil⟩
  | cons first rest ih =>
      obtain ⟨last, served⟩ := first
      obtain ⟨lasts, others⟩ := ih
      exact ⟨congrArg₂ List.cons last lasts, .cons served others⟩

theorem sum_timed_last (users : List User) :
    ((users.map User.last).map Share.timed).sum = users.countP User.isScanner := by
  induction users with
  | nil => rfl
  | cons user users ih =>
      rw [List.map_cons, List.map_cons, List.sum_cons, ih, List.countP_cons, Nat.add_comm]
      rfl

theorem scans_stay_apart (latency : Latency) (calls : List Call) (users : List User)
    (schedule : List Nat)
    (few : across tagsIssued (run latency calls).1 + (users.map User.needed).sum < UInt64.size) :
    let before := (run latency calls).2
    let finished := Activity.run (Activity.interleave schedule (users.map User.activity)) before
    List.Forall₂ User.Served users finished.1 ∧
      finished.2.inFlight = before.inFlight ∧
      finished.2.strays = before.strays ∧
      finished.2.latency.count = before.latency.count + users.countP User.isScanner := by
  intro before finished
  have issued := reached_issued (run_reached latency calls) (by omega)
  have shared : Shared before before (users.map User.first) := by
    refine shared_start before _ _ issued ?_ ?_
    · rw [List.map_map]
      exact few
    · intro share member
      obtain ⟨user, _, rfl⟩ := List.mem_map.mp member
      exact ⟨rfl, rfl⟩
  obtain ⟨ends, ended, results, each⟩ := Activity.interleave_each users User.activity User.first
    (fun user own outcome => own = user.last ∧ user.Served outcome) keeps_activity schedule before shared
  obtain ⟨lasts, served⟩ := shares_last each
  rw [← results] at served
  rw [lasts] at ended
  refine ⟨served, ?_, ended.strays, ?_⟩
  · have closed := sum_eq_zero (Share.opened ∘ User.last) users fun _ _ => rfl
    have counted := ended.inFlight
    rw [List.map_map, closed] at counted
    exact counted
  · exact sum_timed_last users ▸ ended.timed

theorem two_scans_stay_apart :
    let base := HeapClass.concrete ⟨1⟩ "com.acme.Base" none
    let users := [User.scanner base [some ⟨⟨7⟩, base⟩, none, some ⟨⟨8⟩, base⟩] 0 3,
      User.scanner base [some ⟨⟨9⟩, base⟩] 1 2, User.taker 1]
    let latency := Latency.empty 4 (by decide)
    let calls := [Call.takeTag, Call.visit ⟨5⟩ none]
    across tagsIssued (run latency calls).1 + (users.map User.needed).sum < UInt64.size ∧
      List.Forall₂ User.Served users (Activity.run
        (Activity.interleave [1, 0, 2, 0, 1, 1, 0] (users.map User.activity)) (run latency calls).2).1 := by
  intro base users latency calls
  have few : across tagsIssued (run latency calls).1 + (users.map User.needed).sum < UInt64.size := by
    change 4 < UInt64.size
    decide
  exact ⟨few, (scans_stay_apart latency calls users [1, 0, 2, 0, 1, 1, 0] few).1⟩

end HeapCensus.Registry
