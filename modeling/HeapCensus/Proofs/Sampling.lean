import HeapCensus.Watch
import HeapCensus.Proofs.ForEach

set_option autoImplicit false

namespace HeapCensus

open Activity (Course)
open Query (Delivery)

variable {ε ω α β : Type}

def Outcome.Panics (outcome : Outcome ε α) : Prop := ∃ payload, outcome = .error (.panic payload)

theorem Outcome.panics_error {failure : Failure ε} (panics : Outcome.Panics (.error failure : Outcome ε α)) :
    Outcome.Panics (.error failure : Outcome ε β) := by
  obtain ⟨payload, same⟩ := panics
  exact ⟨payload, congrArg Except.error (Except.error.inj same)⟩

theorem Outcome.told_of_steady {outcome : Outcome ε α} (steady : ¬ Outcome.Panics outcome) :
    (∃ value, outcome = .ok value) ∨ ∃ cause, outcome = Outcome.fail cause := by
  cases outcome with
  | ok value => exact .inl ⟨value, rfl⟩
  | error failure =>
      cases failure with
      | error cause => exact .inr ⟨cause, rfl⟩
      | panic payload => exact absurd ⟨payload, rfl⟩ steady

/-- In this world the call may fail, but it does not panic. -/
def Walk.Calm (walk : Walk ω α) (world : ω) : Prop := ¬ Outcome.Panics (walk.call world).1

/-- A world in which nothing that a sampling asks for panics, but for an enumeration. -/
structure Walker.Calm (walker : Walker ω) (world : ω) : Prop where
  loads : ∀ loader name, (walker.loadClass loader name).Calm world
  arrays : ∀ component, (walker.arrayClass component).Calm world
  loaders : walker.classLoaderClass.Calm world
  lists : ∀ type tag bound, (walker.instancesAny type tag bound).Calm world

/-- The machine has room for the buffer of a stream. -/
def Session.Roomy (session : Session ω) : Prop :=
  session.census.machine.buffer (Nat.max session.census.settings.streamCapacity 1) = none

instance (session : Session ω) : Decidable session.Roomy := inferInstanceAs (Decidable (_ = none))

def Session.OpensAll (session : Session ω) : Prop := ∀ tag, session.census.Opens tag

theorem Session.roomy_of_opens {session : Session ω} (opens : session.OpensAll) : session.Roomy :=
  (opens Tag.clear).room

namespace Query

variable {walker : Walker ω} {steps : List (Session ω × Session ω)}

def Steady (walker : Walker ω) (query : Query ω α) : Prop :=
  ∀ steps outcome, Course query.run steps outcome → (∀ step ∈ steps, walker.Calm step.1.world) →
    ¬ Outcome.Panics outcome

theorem course_query (query : Query ω α) {next : α → Query ω β} {outcome : Outcome QueryError β}
    (course : Course (query >>= next).run steps outcome) :
    (∃ front value back, steps = front ++ back ∧ Course query.run front (.ok value) ∧
      Course (next value).run back outcome) ∨
    ∃ failure, Course query.run steps (.error failure) ∧ outcome = .error failure := by
  obtain ⟨front, middle, back, rfl, first, later⟩ := Activity.course_bind course
  cases middle with
  | ok value => exact .inl ⟨front, value, back, rfl, first, later⟩
  | error failure =>
      obtain ⟨rfl, rfl⟩ := course_done later
      rw [List.append_nil]
      exact .inr ⟨failure, first, rfl⟩

theorem course_lift {activity : Activity (Session ω) α} {next : α → Query ω β} {outcome : Outcome QueryError β}
    (course : Course (ExceptT.lift activity >>= next).run steps outcome) :
    ∃ front value back, steps = front ++ back ∧ Course activity front value ∧
      Course (next value).run back outcome := by
  rcases course_query _ course with ⟨front, value, back, rfl, lifted, later⟩ | ⟨failure, lifted, _⟩
  · obtain ⟨own, result, last, rfl, made, done⟩ := Activity.course_bind lifted
    obtain ⟨rfl, same⟩ := course_done done
    obtain rfl := Except.ok.inj same
    exact ⟨own, value, back, by rw [List.append_nil], made, later⟩
  · obtain ⟨_, result, _, _, _, done⟩ := Activity.course_bind lifted
    cases (course_done done).2

theorem steady_bind {query : Query ω α} {next : α → Query ω β} (first : Steady walker query)
    (later : ∀ value, Steady walker (next value)) : Steady walker (query >>= next) := by
  intro steps outcome course calm
  rcases course_query _ course with ⟨front, value, back, rfl, _, onwards⟩ | ⟨failure, failed, rfl⟩
  · exact later value back outcome onwards fun step member => calm step (List.mem_append_right front member)
  · exact fun panics => first steps _ failed calm (Outcome.panics_error panics)

theorem steady_stop {outcome : Outcome QueryError α} (steady : ¬ Outcome.Panics outcome) :
    Steady walker (ExceptT.mk (.stop outcome)) := by
  intro steps result course _
  obtain ⟨_, rfl⟩ := course_done course
  exact steady

theorem steady_pure (value : α) : Steady walker (pure value) := steady_stop (nofun : ¬ Outcome.Panics (.ok value))

theorem steady_of_except (given : Except QueryError α) : Steady walker (ofExcept given) := by
  cases given with
  | ok value => exact steady_pure value
  | error cause => exact steady_stop (nofun : ¬ Outcome.Panics (.error (.error cause)))

theorem steady_asked {f : Session ω → Outcome QueryError α × Session ω}
    (steady : ∀ session, walker.Calm session.world → ¬ Outcome.Panics (f session).1) :
    Steady walker (ExceptT.mk (Activity.step f)) := by
  intro steps outcome course calm
  cases course with
  | act _ _ session _ _ onwards =>
      obtain ⟨_, rfl⟩ := course_done onwards
      exact steady session (calm _ List.mem_cons_self)

theorem steady_step (f : Session ω → α × Session ω) : Steady walker (Query.step f) :=
  steady_asked (f := fun session => (.ok (f session).1, (f session).2)) fun _ _ => nofun

theorem steady_call {walk : Walk ω α} (calm : ∀ world, walker.Calm world → walk.Calm world) :
    Steady walker (call walk) := by
  refine steady_asked fun session found => ?_
  rcases Outcome.told_of_steady (calm session.world found) with ⟨value, called⟩ | ⟨cause, called⟩
  · simp only [called]
    exact nofun
  · simp only [called]
    exact nofun

theorem steady_attempt {walk : Walk ω α} (calm : ∀ world, walker.Calm world → walk.Calm world) :
    Steady walker (attempt walk) := by
  refine steady_asked fun session found => ?_
  rcases Outcome.told_of_steady (calm session.world found) with ⟨value, called⟩ | ⟨cause, called⟩
  · simp only [called]
    exact nofun
  · simp only [called]
    exact nofun

theorem steady_arrays_over (arrays components : List HeapClass) :
    Steady walker (arraysOver walker arrays components) := by
  induction components generalizing arrays with
  | nil => exact steady_pure arrays
  | cons component components ih =>
      refine steady_bind (steady_attempt fun world calm => calm.arrays component) fun found => ?_
      cases found with
      | none => exact ih arrays
      | some array => exact ih (insertClass array arrays)

theorem steady_loaded_by (name : String) (types : List HeapClass) (loaders : List HeapObject) :
    Steady walker (loadedBy walker name types loaders) := by
  induction loaders generalizing types with
  | nil => exact steady_pure types
  | cons loader loaders ih =>
      refine steady_bind (steady_attempt fun world calm => calm.loads (some loader) name) fun found => ?_
      cases found with
      | none => exact ih types
      | some type => exact ih (insertClass type types)

theorem steady_resolve_base (base : String) : Steady walker (resolveBase walker base) := by
  unfold resolveBase
  split
  · exact steady_bind (steady_step _) fun type => steady_pure type.toList
  · refine steady_bind (steady_attempt fun world calm => calm.loads none base) fun own => ?_
    refine steady_bind (steady_call fun world calm => calm.loaders) fun loaderClass => ?_
    refine steady_bind ?_ fun loaders => steady_loaded_by base own.toList loaders
    refine steady_bind (steady_of_except _) fun bound => steady_bind (steady_step _) fun tag => ?_
    exact steady_call fun world calm => calm.lists loaderClass tag bound

theorem steady_resolve_dimensions (base : String) (dimensions : Nat) :
    Steady walker (resolveDimensions walker base dimensions) := by
  induction dimensions with
  | zero => exact steady_resolve_base base
  | succ dimensions ih => exact steady_bind ih fun components => steady_arrays_over [] components

theorem steady_resolve (name : String) : Steady walker (resolve walker name) := by
  refine steady_bind (steady_of_except _) fun parsed => steady_bind (steady_step _) fun remembered => ?_
  cases remembered with
  | some types => exact steady_pure types
  | none =>
      refine steady_bind (steady_resolve_dimensions parsed.base parsed.dimensions) fun types => ?_
      exact steady_bind (steady_step _) fun _ => steady_pure types

theorem hand_over_steady (items : List (Option HeapObject)) (fault : Option String) :
    ¬ Outcome.Panics (handOver items fault).outcome := by
  cases fault <;> exact nofun

theorem for_each_steady {type : HeapClass} {delivery : Delivery}
    (course : Course (forEachInstance walker type 0) steps delivery) (room : ∀ step ∈ steps, step.1.Roomy) :
    ¬ Outcome.Panics delivery.outcome := by
  rcases for_each_course course with ⟨opening, feed, back, rfl, _, empties⟩ | ⟨failure, failed, rfl⟩
  · obtain ⟨_, _, _, items, after, _, _, _, rfl⟩ := emptied_course empties
    exact hand_over_steady items after.stream.fault
  · cases concrete : type.isConcrete with
    | true =>
        obtain ⟨first, second, tag, rfl, rfl, opened⟩ := enumerate_course rfl concrete failed
        have roomy : second.1.Roomy := room second (List.mem_cons_of_mem first List.mem_cons_self)
        rintro ⟨payload, panics⟩
        obtain rfl := Except.error.inj panics
        cases opens : second.1.census.openStream first.1.census.registry.nextTag with
        | ok stream =>
            rw [opens] at opened
            cases opened
        | error failure =>
            rw [opens] at opened
            obtain rfl := Except.error.inj opened
            cases roomy.symm.trans (Census.open_stream_panics opens)
    | false =>
        obtain ⟨_, opened⟩ := enumerate_finished rfl concrete failed
        cases opened

inductive Enumerated (walker : Walker ω) : List HeapClass → List Delivery → List (Session ω × Session ω) → Prop
  | none : Enumerated walker [] [] []
  | next {type : HeapClass} {types : List HeapClass} {delivery : Delivery} {deliveries : List Delivery}
      {first others : List (Session ω × Session ω)} :
      Course (forEachInstance walker type 0) first delivery → Enumerated walker types deliveries others →
      Enumerated walker (type :: types) (delivery :: deliveries) (first ++ others)

def Complete (deliveries : List Delivery) : Prop :=
  ∀ delivery ∈ deliveries, ∃ amount, delivery.outcome = .ok amount

def Delivery.present (delivery : Delivery) : Nat := (delivery.items.filter Option.isSome).length

inductive Totalled (walker : Walker ω) (types : List HeapClass) (steps : List (Session ω × Session ω)) :
    Outcome QueryError Nat → Prop
  | complete {deliveries : List Delivery} : Enumerated walker types deliveries steps → Complete deliveries →
      Totalled walker types steps (.ok (deliveries.map Delivery.present).sum)
  | cut (before : List HeapClass) (deliveries : List Delivery) {type : HeapClass} {after : List HeapClass}
      {last : Delivery} {cause : QueryError} : types = before ++ type :: after →
      Enumerated walker (before ++ [type]) (deliveries ++ [last]) steps → Complete deliveries →
      last.outcome = Outcome.fail cause → Totalled walker types steps (Outcome.fail cause)

theorem totalled_failed {type : HeapClass} (types : List HeapClass) {delivery : Delivery} {cause : QueryError}
    (handed : Course (forEachInstance walker type 0) steps delivery) (failed : delivery.outcome = Outcome.fail cause) :
    Totalled walker (type :: types) steps (Outcome.fail cause) := by
  have enumerated := Enumerated.next handed Enumerated.none
  rw [List.append_nil] at enumerated
  exact .cut [] [] rfl enumerated nofun failed

theorem totalled_next {type : HeapClass} {types : List HeapClass} {delivery : Delivery} {amount : Nat}
    {others : List (Session ω × Session ω)} {outcome : Outcome QueryError Nat}
    (handed : Course (forEachInstance walker type 0) steps delivery) (ended : delivery.outcome = .ok amount)
    (later : Totalled walker types others outcome) :
    Totalled walker (type :: types) (steps ++ others) (outcome.map (delivery.present + ·)) := by
  have whole : ∀ {deliveries}, Complete deliveries → Complete (delivery :: deliveries) :=
    fun complete => List.forall_mem_cons.mpr ⟨⟨amount, ended⟩, complete⟩
  cases later with
  | complete enumerated complete => exact .complete (.next handed enumerated) (whole complete)
  | cut before deliveries split enumerated complete failed =>
      exact .cut (type :: before) (delivery :: deliveries) (congrArg (type :: ·) split) (.next handed enumerated)
        (whole complete) failed

theorem totalled_error {types : List HeapClass} {failure : Failure QueryError}
    (totalled : Totalled walker types steps (.error failure)) : ∃ cause, failure = .error cause := by
  cases totalled with
  | cut => exact ⟨_, rfl⟩

theorem enumerate_all_course {types : List HeapClass} {outcome : Outcome QueryError Nat}
    (course : Course (Watch.enumerateAll walker types).run steps outcome) (room : ∀ step ∈ steps, step.1.Roomy) :
    Totalled walker types steps outcome := by
  induction types generalizing steps outcome with
  | nil =>
      obtain ⟨rfl, rfl⟩ := course_done course
      exact .complete .none nofun
  | cons type types ih =>
      obtain ⟨front, delivery, back, rfl, handed, onwards⟩ := course_lift course
      obtain ⟨first, others⟩ := List.forall_mem_append.mp room
      rcases Outcome.told_of_steady (for_each_steady handed first) with ⟨amount, ended⟩ | ⟨cause, failed⟩
      · rw [ended] at onwards
        rcases course_query (Watch.enumerateAll walker types) onwards with
          ⟨middle, total, last, rfl, later, done⟩ | ⟨failure, later, rfl⟩
        · obtain ⟨rfl, rfl⟩ := course_done done
          rw [List.append_nil] at others ⊢
          exact totalled_next handed ended (ih later others)
        · exact totalled_next handed ended (ih later others)
      · rw [failed] at onwards
        obtain ⟨rfl, rfl⟩ := course_done onwards
        rw [List.append_nil]
        exact totalled_failed types handed failed

/-- The ways in which the sampling of a name goes, and the gauge that it gives, if it gives one. -/
inductive Sampled (walker : Walker ω) (name : String) : List (Session ω × Session ω) → Option Gauge → Prop
  | unresolved (opened : Session ω) {resolving : List (Session ω × Session ω)} {cause : QueryError} :
      Course (resolve walker name).run resolving (Outcome.fail cause) →
      Sampled walker name ((opened, opened) :: resolving) none
  | unknown (opened : Session ω) {resolving : List (Session ω × Session ω)} :
      Course (resolve walker name).run resolving (.ok []) → Sampled walker name ((opened, opened) :: resolving) none
  | cut (opened : Session ω) {resolving counting : List (Session ω × Session ω)} {types : List HeapClass}
      {cause : QueryError} : Course (resolve walker name).run resolving (.ok types) →
      Totalled walker types counting (Outcome.fail cause) →
      Sampled walker name ((opened, opened) :: (resolving ++ counting)) none
  | counted (opened closed : Session ω) {resolving counting : List (Session ω × Session ω)} {types : List HeapClass}
      {total : Nat} : Course (resolve walker name).run resolving (.ok types) → types ≠ [] →
      Totalled walker types counting (.ok total) →
      Sampled walker name ((opened, opened) :: (resolving ++ (counting ++ [(closed, closed)])))
        (some ⟨name, total, types.length, closed.census.clock, closed.census.clock - opened.census.clock⟩)

theorem sample_name_course {name : String} {outcome : Outcome QueryError Gauge}
    (course : Course (Watch.sampleName walker name).run steps outcome) (calm : ∀ step ∈ steps, walker.Calm step.1.world)
    (room : ∀ step ∈ steps, step.1.Roomy) :
    ¬ Outcome.Panics outcome ∧ Sampled walker name steps outcome.toOption := by
  obtain ⟨opened, later, rfl, onwards⟩ := course_step course
  have calmly := (List.forall_mem_cons.mp calm).2
  have roomy := (List.forall_mem_cons.mp room).2
  rcases course_query (resolve walker name) onwards with
    ⟨resolving, types, back, rfl, resolved, counts⟩ | ⟨failure, resolved, rfl⟩
  · cases types with
    | nil =>
        obtain ⟨rfl, rfl⟩ := course_done counts
        rw [List.append_nil]
        exact ⟨nofun, .unknown opened resolved⟩
    | cons type types =>
        have rooms := (List.forall_mem_append.mp roomy).2
        rcases course_query (Watch.enumerateAll walker (type :: types)) counts with
          ⟨counting, total, last, rfl, totals, closes⟩ | ⟨failure, totals, rfl⟩
        · obtain ⟨closed, none, rfl, done⟩ := course_step closes
          obtain ⟨rfl, rfl⟩ := course_done done
          have totalled := enumerate_all_course totals (List.forall_mem_append.mp rooms).1
          exact ⟨nofun, .counted opened closed resolved (List.cons_ne_nil type types) totalled⟩
        · have totalled := enumerate_all_course totals rooms
          obtain ⟨cause, rfl⟩ := totalled_error totalled
          exact ⟨nofun, .cut opened resolved totalled⟩
  · have steady := steady_resolve name _ _ resolved calmly
    cases failure with
    | error cause => exact ⟨nofun, .unresolved opened resolved⟩
    | panic payload => exact absurd ⟨payload, rfl⟩ steady

end Query

structure Sample (ω : Type) where
  name : String
  steps : List (Session ω × Session ω)
  gauge? : Option Gauge

namespace Watch

open Query (Sampled)

variable {walker : Walker ω} {steps : List (Session ω × Session ω)}

def gaugesOf (samples : List (Sample ω)) : List Gauge := samples.filterMap Sample.gauge?

structure Round (walker : Walker ω) (names : List String) (steps : List (Session ω × Session ω)) (watch : Watch)
    (told : Except Panic Nat × Watch) (samples : List (Sample ω)) : Prop where
  names : samples.map Sample.name = names
  steps : samples.flatMap Sample.steps = steps
  sampled : ∀ sample ∈ samples, Sampled walker sample.name sample.steps sample.gauge?
  answer : told.1 = .ok (gaugesOf samples).length
  after : told.2 = (gaugesOf samples).foldl put watch

section Round

variable {name : String} {names : List String} {others : List (Session ω × Session ω)} {watch : Watch}
  {samples : List (Sample ω)}

theorem round_gauged {gauge : Gauge} {answer : Except Panic Nat} {after : Watch}
    (sampled : Sampled walker name steps (some gauge))
    (round : Round walker names others (watch.put gauge) (answer, after) samples) :
    Round walker (name :: names) (steps ++ others) watch (answer.map (· + 1), after)
      (⟨name, steps, some gauge⟩ :: samples) where
  names := congrArg (name :: ·) round.names
  steps := congrArg (steps ++ ·) round.steps
  sampled := List.forall_mem_cons.mpr ⟨sampled, round.sampled⟩
  answer := congrArg (Except.map (· + 1)) round.answer
  after := round.after

theorem round_failed {told : Except Panic Nat × Watch} (sampled : Sampled walker name steps none)
    (round : Round walker names others watch told samples) :
    Round walker (name :: names) (steps ++ others) watch told (⟨name, steps, none⟩ :: samples) where
  names := congrArg (name :: ·) round.names
  steps := congrArg (steps ++ ·) round.steps
  sampled := List.forall_mem_cons.mpr ⟨sampled, round.sampled⟩
  answer := round.answer
  after := round.after

end Round

theorem sample_names_course {names : List String} {watch : Watch} {told : Except Panic Nat × Watch}
    (course : Course (sampleNames walker names watch) steps told) (calm : ∀ step ∈ steps, walker.Calm step.1.world)
    (room : ∀ step ∈ steps, step.1.Roomy) :
    ∃ samples, Round walker names steps watch told samples := by
  induction names generalizing steps watch told with
  | nil =>
      obtain ⟨rfl, rfl⟩ := Query.course_done course
      exact ⟨[], rfl, rfl, nofun, rfl, rfl⟩
  | cons name names ih =>
      obtain ⟨front, outcome, back, rfl, first, onwards⟩ := Activity.course_bind course
      obtain ⟨calmly, calms⟩ := List.forall_mem_append.mp calm
      obtain ⟨roomy, rooms⟩ := List.forall_mem_append.mp room
      obtain ⟨steady, sampled⟩ := Query.sample_name_course first calmly roomy
      rcases Outcome.told_of_steady steady with ⟨gauge, rfl⟩ | ⟨cause, rfl⟩
      · obtain ⟨middle, ⟨answer, after⟩, last, rfl, later, done⟩ := Activity.course_bind onwards
        obtain ⟨rfl, rfl⟩ := Query.course_done done
        rw [List.append_nil] at calms rooms ⊢
        obtain ⟨samples, round⟩ := ih later calms rooms
        exact ⟨⟨name, front, some gauge⟩ :: samples, round_gauged sampled round⟩
      · obtain ⟨samples, round⟩ := ih onwards calms rooms
        exact ⟨⟨name, front, none⟩ :: samples, round_failed sampled round⟩

end Watch

end HeapCensus
