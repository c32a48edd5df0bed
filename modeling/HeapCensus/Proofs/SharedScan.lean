import HeapCensus.Proofs.Scan
import HeapCensus.Proofs.Sharing
import HeapCensus.Proofs.SyntheticHeap

set_option autoImplicit false

namespace HeapCensus

namespace Query

open Registry

variable {ω α β : Type} {before : Registry} {same : ω → Prop} {needed timed : Nat}

structure Sharing (before : Registry) (same : ω → Prop) (session : Session ω) (shares : List Share) :
    Prop where
  registry : Shared before session.census.registry shares
  world : same session.world

theorem keeps_sharing {f : Session ω → α × Session ω} {old : Share} {post : Share → α → Prop}
    (moves : ∀ session, same session.world → Owns session.census.registry old →
      ∃ new, same (f session).2.world ∧
        (∀ amount, Issued amount session.census.registry → amount + old.needed < UInt64.size →
          Moves amount session.census.registry (f session).2.census.registry old new) ∧
        post new (f session).1) :
    Activity.Keeps (Sharing before same) post (Activity.step f) old := by
  refine Activity.keeps_step fun session shares place mine sharing => ?_
  have owned := sharing.registry.owned old (List.mem_of_getElem? mine)
  obtain ⟨new, world, moved, done⟩ := moves session sharing.world owned
  exact ⟨new, ⟨shared_moves sharing.registry mine moved, world⟩, done⟩

def Yields (post : Share → α → Prop) (own : Share) (outcome : Outcome QueryError α) : Prop :=
  ∃ value, outcome = .ok value ∧ post own value

theorem keeps_lift {holds : Session ω → List Share → Prop} {post : Share → α → Prop}
    {activity : Activity (Session ω) α} {own : Share} (keeps : Activity.Keeps holds post activity own) :
    Activity.Keeps holds (Yields post) (ExceptT.run (ExceptT.lift activity : Query ω α)) own := by
  change Activity.Keeps holds (Yields post) (Dialogue.bind activity fun value => .stop (.ok value)) own
  refine Activity.keeps_bind post ?_ activity own keeps
  exact fun own value held => ⟨value, rfl, held⟩

theorem keeps_query_bind {holds : Session ω → List Share → Prop} (middle : Share → α → Prop)
    {post : Share → Outcome QueryError β → Prop} {query : Query ω α} {next : α → Query ω β} {own : Share}
    (after : ∀ own value, middle own value → Activity.Keeps holds post (next value).run own)
    (keeps : Activity.Keeps holds (Yields middle) query.run own) :
    Activity.Keeps holds post (query >>= next).run own := by
  refine Activity.keeps_bind (Yields middle) ?_ query.run own keeps
  rintro own _ ⟨value, rfl, held⟩
  exact after own value held

/-- Visits under a tag, and at most one completion after them. -/
def Lawful (tag : Tag) : List ScanEvent → Prop
  | [] => True
  | .visited named _ :: events => named = tag ∧ Lawful tag events
  | .completed named :: events => named = tag ∧ events = []
  | .fault _ _ :: _ => False

def completions (tag : Tag) (events : List ScanEvent) : Nat :=
  events.countP fun event => event = .completed tag

theorem keeps_heard {event : ScanEvent} {old new : Share}
    (moves : ∀ session : Session ω, Owns session.census.registry old →
      ∀ amount, Issued amount session.census.registry → Moves amount session.census.registry
        (session.census.registry.receive session.census.clock event) old new) :
    Activity.Keeps (Sharing before same) (fun own reply => reply = SinkReply.taken ∧ own = new)
      (Activity.step (hear event)) old := by
  refine keeps_sharing fun session world owned => ⟨new, ?_, ?_, ?_, rfl⟩
  · rw [hear_eq]
    exact world
  · intro amount issued _
    rw [hear_eq]
    exact moves session owned amount issued
  · rw [hear_eq]

theorem keeps_call {event : ScanEvent} {resume : SinkReply → Dialogue ω ScanEvent SinkReply α}
    {post : Share → α → Prop} {old new : Share}
    (moves : ∀ session : Session ω, Owns session.census.registry old →
      ∀ amount, Issued amount session.census.registry → Moves amount session.census.registry
        (session.census.registry.receive session.census.clock event) old new)
    (after : Activity.Keeps (Sharing before same) post
      (Activity.serve Session.world Session.setWorld hear (resume .taken)) new) :
    Activity.Keeps (Sharing before same) post
      (Activity.serve Session.world Session.setWorld hear (.call event resume)) old := by
  change Activity.Keeps _ post (Dialogue.bind (Activity.step (hear event)) fun reply =>
    Activity.serve Session.world Session.setWorld hear (resume reply)) old
  refine Activity.keeps_bind _ ?_ _ _ (keeps_heard moves)
  rintro own _ ⟨rfl, rfl⟩
  exact after

theorem tells_nothing {dialogue : Dialogue ω ScanEvent SinkReply α} {result : α}
    (told : Tells dialogue [] result) : dialogue = .stop result := by
  cases told
  rfl

theorem keeps_tells {dialogue : Dialogue ω ScanEvent SinkReply α} {events : List ScanEvent} {result : α}
    (told : Tells dialogue events result) (tag : Tag) (account : Account) (timed : Nat)
    (unfinished : account.complete = false) (lawful : Lawful tag events) :
    Activity.Keeps (Sharing before same)
      (fun own outcome => outcome = result ∧
        own = ⟨needed, some (tag, events.foldl (Account.hear tag) account), timed + completions tag events⟩)
      (Activity.serve Session.world Session.setWorld hear dialogue)
      ⟨needed, some (tag, account), timed⟩ := by
  induction told generalizing account timed with
  | stop result => exact ⟨rfl, rfl⟩
  | call event resume events result told ih =>
      cases event with
      | fault named message => exact lawful.elim
      | completed named =>
          obtain ⟨rfl, rfl⟩ := lawful
          refine keeps_call (fun session owned amount issued =>
            moves_complete session.census.clock issued owned unfinished) ?_
          rw [tells_nothing told]
          simp [Activity.serve, Activity.Keeps, Account.hear, completions]
      | visited named object =>
          obtain ⟨rfl, rest⟩ := lawful
          cases object with
          | none =>
              refine keeps_call (fun session owned amount issued => moves_nothing issued owned) ?_
              have later := ih account timed unfinished rest
              simpa [Account.hear, completions] using later
          | some object =>
              refine keeps_call (fun session owned amount issued =>
                moves_visit object issued owned unfinished) ?_
              have counting : (account.count object).complete = false := by
                simp [Account.count, unfinished]
              have later := ih (account.count object) timed counting rest
              simpa [Account.hear, completions] using later

theorem keeps_register {f : Registry → α × Registry} {old : Share} {post : Share → α → Prop}
    (moves : ∀ registry, Owns registry old → ∃ new,
      (∀ amount, Issued amount registry → amount + old.needed < UInt64.size →
        Moves amount registry (f registry).2 old new) ∧ post new (f registry).1) :
    Activity.Keeps (Sharing before same) (Yields post) (Query.register f : Query ω α).run old := by
  refine keeps_lift (keeps_sharing fun session world owned => ?_)
  obtain ⟨new, moved, done⟩ := moves session.census.registry owned
  exact ⟨new, world, moved, done⟩

theorem keeps_look {view : Session ω → α} {own : Share} {post : Share → α → Prop}
    (seen : ∀ session, post own (view session)) :
    Activity.Keeps (Sharing before same) (Yields post) (Query.look view).run own := by
  refine keeps_lift (keeps_sharing fun session world owned => ⟨own, world, ?_, seen session⟩)
  exact fun amount issued _ => moves_nothing issued owned

def Delivers (account : Account) (report : ScanReport) : Prop :=
  report.target = account.target ∧ report.tally = Tally.ofObjects account.counted

theorem keeps_abandon (tag : Tag) (account : Account) (reason : String) :
    Activity.Keeps (Sharing before same)
      (Yields fun own report => own = ⟨needed, none, timed⟩ ∧ Delivers account report)
      (abandon tag reason : Query ω ScanReport).run ⟨needed, some (tag, account), timed⟩ := by
  refine keeps_query_bind (fun own report => own = ⟨needed, none, timed⟩ ∧
    ∃ given, report = some given ∧ Delivers account given) ?_ ?_
  · rintro own _ ⟨rfl, report, rfl, delivered⟩
    exact ⟨report, rfl, rfl, delivered⟩
  · refine keeps_register fun registry owned => ?_
    obtain ⟨entry, held, matched⟩ := owned tag account rfl
    rw [abandon_held held]
    refine ⟨⟨needed, none, timed⟩, ?_, rfl, _, rfl, matched.target, matched.tally⟩
    exact fun amount issued _ => moves_remove issued owned

theorem keeps_conclude (tag : Tag) (account : Account) (result : Outcome WalkerError Unit) :
    Activity.Keeps (Sharing before same)
      (Yields fun own report => own = ⟨needed, none, timed⟩ ∧ Delivers account report)
      (conclude tag result : Query ω ScanReport).run ⟨needed, some (tag, account), timed⟩ := by
  cases result with
  | error failure =>
      cases failure with
      | error cause => exact keeps_abandon tag account _
      | panic payload => exact keeps_abandon tag account _
  | ok value =>
      refine keeps_query_bind (fun own finished =>
        (own = ⟨needed, none, timed⟩ ∧ ∃ report, finished = .ok report ∧ Delivers account report) ∨
          own = ⟨needed, some (tag, account), timed⟩ ∧ finished = .error (.notComplete tag)) ?_ ?_
      · rintro own finished (⟨rfl, report, rfl, delivered⟩ | ⟨rfl, rfl⟩)
        · exact ⟨report, rfl, rfl, delivered⟩
        · exact keeps_abandon tag account _
      · refine keeps_register fun registry owned => ?_
        obtain ⟨entry, held, matched⟩ := owned tag account rfl
        cases closed : entry.isComplete with
        | true =>
            rw [finish_closed held closed]
            refine ⟨⟨needed, none, timed⟩, ?_, .inl ⟨rfl, _, rfl, matched.target, matched.tally⟩⟩
            exact fun amount issued _ => moves_remove issued owned
        | false =>
            rw [finish_open held closed]
            refine ⟨_, ?_, .inr ⟨rfl, rfl⟩⟩
            exact fun amount issued _ => moves_nothing issued owned

theorem lawful_append (tag : Tag) (objects : List (Option HeapObject)) (events : List ScanEvent)
    (lawful : Lawful tag events) : Lawful tag (objects.map (.visited tag) ++ events) := by
  induction objects with
  | nil => exact lawful
  | cons object objects ih => exact ⟨rfl, ih⟩

end Query

namespace SyntheticHeap

/-- What the reports of a scan depend on, apart from their order. -/
structure Alike (heap other : SyntheticHeap) : Prop where
  objects : other.objects = heap.objects
  supertypes : other.supertypes = heap.supertypes

theorem below_alike {heap other : SyntheticHeap} (alike : Alike heap other) (type : HeapClass) :
    other.below type = heap.below type := by
  simp only [below, isSubtype, alike.objects, alike.supertypes]

theorem any_alike {heap other : SyntheticHeap} (alike : Alike heap other) (type : HeapClass)
    (bound : UInt32) : other.any type bound = heap.any type bound := by
  rw [any_eq_take, any_eq_take, below_alike alike]

def scanEvents (heap : SyntheticHeap) (tag : Tag) (order : List HeapObject) : List ScanEvent :=
  List.replicate heap.emitNulls (.visited tag none) ++ (visited tag order ++ heap.ending tag)

theorem scan_events_eq (heap : SyntheticHeap) (tag : Tag) (order : List HeapObject) :
    heap.scanEvents tag order =
      (List.replicate heap.emitNulls none ++ order.map some).map (.visited tag) ++ heap.ending tag := by
  simp [scanEvents, visited]

theorem ending_lawful (heap : SyntheticHeap) (tag : Tag) : Query.Lawful tag (heap.ending tag) := by
  unfold ending
  split
  · trivial
  · exact ⟨rfl, rfl⟩

theorem visits_of_visited (tag : Tag) (objects : List (Option HeapObject)) (events : List ScanEvent) :
    ScanEvent.visits tag (objects.map (.visited tag) ++ events) =
      objects.filterMap (fun object => object) ++ ScanEvent.visits tag events := by
  induction objects with
  | nil => rfl
  | cons object objects ih =>
      rw [List.map_cons, List.cons_append, ScanEvent.visits_cons, if_neg (by simp), ih]
      cases object <;> simp [ScanEvent.objectAt?]

theorem visits_of_scan (heap : SyntheticHeap) (tag : Tag) (order : List HeapObject) :
    ScanEvent.visits tag (heap.scanEvents tag order) = order := by
  have silent : ScanEvent.visits tag (heap.ending tag) = [] := by
    unfold ending
    split <;> simp [ScanEvent.visits]
  rw [scan_events_eq, visits_of_visited, silent]
  simp

end SyntheticHeap

namespace Query

open Registry

variable {before : Registry}

/-- The report has the instances of the type's subtypes that a scan without a bound selects, once. -/
def Lists (heap : SyntheticHeap) (type : HeapClass) (report : ScanReport) : Prop :=
  ∃ order, List.Perm order (heap.any type unbounded) ∧ report.tally = Tally.ofObjects order

def Covers (heap : SyntheticHeap) (type : HeapClass) (report : ScanReport) : Prop :=
  ∃ order, List.Perm order (heap.below type) ∧ report.tally = Tally.ofObjects order

theorem covers_of_lists {heap : SyntheticHeap} {type : HeapClass} {report : ScanReport}
    (few : heap.objects.length < UInt32.size) (lists : Lists heap type report) : Covers heap type report := by
  rw [Lists, SyntheticHeap.any_unbounded heap type few] at lists
  exact lists

theorem keeps_run_scan (heap : SyntheticHeap) (type : HeapClass) (tag : Tag) :
    Activity.Keeps (Sharing before (SyntheticHeap.Alike heap))
      (Yields fun own _ => ∃ account timed, own = ⟨0, some (tag, account), timed⟩ ∧
        List.Perm account.counted (heap.any type unbounded))
      (runScan SyntheticHeap.walker type tag unbounded).run ⟨0, some (tag, Account.fresh type), 0⟩ := by
  refine keeps_lift ?_
  -- The scan reads the heap in its first step; from then on its reports are settled.
  intro session shares place mine sharing
  have alike := sharing.world
  obtain ⟨order, same, told⟩ := SyntheticHeap.reports_tells session.world type tag unbounded
  rw [SyntheticHeap.any_alike alike] at same
  have lawful : Lawful tag (session.world.scanEvents tag order) := by
    rw [SyntheticHeap.scan_events_eq]
    exact lawful_append tag _ _ (SyntheticHeap.ending_lawful session.world tag)
  have served : Sharing before (SyntheticHeap.Alike heap) (session.setWorld session.world.served) shares :=
    ⟨sharing.registry, alike.objects, alike.supertypes⟩
  refine ⟨⟨0, some (tag, Account.fresh type), 0⟩, ?_,
    Activity.keeps_weaken ?_ _ _ (keeps_tells told tag (Account.fresh type) 0 rfl lawful)⟩
  · obtain ⟨within, here⟩ := List.getElem?_eq_some_iff.mp mine
    rw [← here, List.set_getElem_self]
    exact served
  · rintro own _ ⟨rfl, rfl⟩
    refine ⟨_, _, rfl, ?_⟩
    rw [Account.hear_all]
    change List.Perm ([] ++ ScanEvent.visits tag (session.world.scanEvents tag order)) _
    rw [SyntheticHeap.visits_of_scan]
    exact same

theorem keeps_cardinality (heap : SyntheticHeap) (type : HeapClass) :
    Activity.Keeps (Sharing before (SyntheticHeap.Alike heap))
      (Yields fun own report => own.scan = none ∧ Lists heap type report)
      (cardinality SyntheticHeap.walker type 0).run ⟨1, none, 0⟩ := by
  rw [cardinality_eq]
  refine keeps_query_bind (fun own bound => own = ⟨1, none, 0⟩ ∧ bound = unbounded) ?_
    ⟨unbounded, rfl, rfl, rfl⟩
  rintro own _ ⟨rfl, rfl⟩
  refine keeps_query_bind (fun own _ => own = ⟨1, none, 0⟩) ?_ (keeps_look fun _ => rfl)
  rintro own now rfl
  refine keeps_query_bind (fun own tag => own = ⟨0, some (tag, Account.fresh type), 0⟩) ?_ ?_
  · rintro own tag rfl
    refine keeps_query_bind _ ?_ (keeps_run_scan heap type tag)
    rintro own outcome ⟨account, timed, rfl, counted⟩
    refine Activity.keeps_weaken ?_ _ _ (keeps_conclude tag account outcome)
    rintro own _ ⟨report, rfl, rfl, _, tally⟩
    exact ⟨report, rfl, rfl, account.counted, counted, tally⟩
  · refine keeps_register fun registry owned => ⟨_, ?_, rfl⟩
    exact fun amount issued room => moves_begin type now issued room

end Query

end HeapCensus
