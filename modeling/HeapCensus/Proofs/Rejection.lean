import HeapCensus.Census.ByName
import HeapCensus.Proofs.Query
import HeapCensus.Proofs.Scan

set_option autoImplicit false

namespace HeapCensus

variable {ω α β : Type}

def Outcome.Blames (outcome : Outcome QueryError α) : Prop :=
  ∃ text, outcome = .error (.error (.invalidArgument text))

theorem Outcome.blames_error {failure : Failure QueryError}
    (blames : Outcome.Blames (.error failure : Outcome QueryError α)) :
    Outcome.Blames (.error failure : Outcome QueryError β) := by
  obtain ⟨text, same⟩ := blames
  exact ⟨text, congrArg Except.error (Except.error.inj same)⟩

theorem Outcome.innocent_ok (value : α) : ¬ Outcome.Blames (.ok value) := by
  rintro ⟨text, same⟩
  cases same

theorem Outcome.innocent_panic (payload : Panic) :
    ¬ Outcome.Blames (.error (.panic payload) : Outcome QueryError α) := by
  rintro ⟨text, same⟩
  cases same

theorem Outcome.innocent_walker (outcome : Outcome WalkerError α) :
    ¬ Outcome.Blames (outcome.mapError QueryError.walker) := by
  rintro ⟨text, same⟩
  cases outcome with
  | ok value => cases same
  | error failure => cases failure <;> cases same

-- A walker that counts the calls of its methods beside its own state.
namespace Walker

def countedWalk (walk : Walk ω α) : Walk (Nat × ω) α :=
  ExceptT.mk fun world =>
    let called := walk.call world.2
    (called.1, world.1 + 1, called.2)

def countedTalk {κ ρ : Type} (talk : ExceptT (Failure WalkerError) (Dialogue ω κ ρ) α) :
    ExceptT (Failure WalkerError) (Dialogue (Nat × ω) κ ρ) α :=
  ExceptT.mk do
    Dialogue.change fun world => (world.1 + 1, world.2)
    talk.run.zoom Prod.snd fun own world => (world.1, own)

def counted (walker : Walker ω) : Walker (Nat × ω) where
  countExact type tag bound := countedWalk (walker.countExact type tag bound)
  countAny type tag bound := countedWalk (walker.countAny type tag bound)
  instancesExact type tag bound := countedWalk (walker.instancesExact type tag bound)
  instancesAny type tag bound := countedWalk (walker.instancesAny type tag bound)
  scan type tag bound := countedTalk (walker.scan type tag bound)
  enumerate type tag bound := countedTalk (walker.enumerate type tag bound)
  classLoaderClass := countedWalk walker.classLoaderClass
  loadClass loader name := countedWalk (walker.loadClass loader name)
  arrayClass component := countedWalk (walker.arrayClass component)
  primitiveClass name := fun world =>
    let called := (walker.primitiveClass name).run world.2
    (called.1, world.1 + 1, called.2)
  loadedAtBoot world := walker.loadedAtBoot world.2
  libraryLocation world := walker.libraryLocation world.2

end Walker

def Session.counting (calls : Nat) (session : Session ω) : Session (Nat × ω) :=
  { census := session.census, world := (calls, session.world) }

namespace Query

/-- However a query goes, and whatever is done between its steps, it blames no argument. -/
def Accepts (query : Query ω α) : Prop :=
  Activity.Gives (fun outcome => ¬ Outcome.Blames outcome) query.run

theorem accepts_bind {query : Query ω α} {next : α → Query ω β} (first : Accepts query)
    (later : ∀ value, Accepts (next value)) : Accepts (query >>= next) := by
  refine Activity.gives_bind _ first fun outcome innocent => ?_
  cases outcome with
  | ok value => exact later value
  | error failure => exact fun blames => innocent (Outcome.blames_error blames)

theorem accepts_pure (value : α) : Accepts (pure value : Query ω α) := Outcome.innocent_ok value

theorem accepts_fail {cause : QueryError} (other : ∀ text, cause ≠ .invalidArgument text) :
    Accepts (fail cause : Query ω α) := by
  rintro ⟨text, same⟩
  exact other text (Failure.error.inj (Except.error.inj same))

theorem accepts_lift (activity : Activity (Session ω) α) : Accepts (ExceptT.lift activity) :=
  Activity.gives_bind _ (Activity.gives_any activity) fun result _ => Outcome.innocent_ok result

theorem accepts_step (f : Session ω → α × Session ω) : Accepts (Query.step f) :=
  accepts_lift (Activity.step f)

theorem accepts_look {view : Session ω → α} {next : α → Query ω β}
    (each : ∀ session, Accepts (next (view session))) : Accepts (look view >>= next) := each

theorem accepts_call (walk : Walk ω α) : Accepts (call walk) :=
  fun session => Outcome.innocent_walker (walk.call session.world).1

theorem accepts_attempt (walk : Walk ω α) : Accepts (attempt walk) := by
  simp only [Accepts, attempt, ExceptT.run, ExceptT.mk, Activity.step, Activity.Gives]
  intro session
  cases (walk.call session.world).1 with
  | ok value => exact Outcome.innocent_ok _
  | error failure =>
      cases failure with
      | error cause => exact Outcome.innocent_ok _
      | panic payload => exact Outcome.innocent_panic payload

theorem accepts_ite {choice : Prop} [Decidable choice] {first second : Query ω α} (one : Accepts first)
    (other : Accepts second) : Accepts (if choice then first else second) := by
  by_cases chosen : choice
  · rw [if_pos chosen]
    exact one
  · rw [if_neg chosen]
    exact other

theorem accepts_given {given : Except QueryError α} {next : α → Query ω β}
    (right : ∃ value, given = .ok value) (later : ∀ value, Accepts (next value)) :
    Accepts (ofExcept given >>= next) := by
  obtain ⟨value, rfl⟩ := right
  exact accepts_bind (accepts_pure value) later

variable (walker : Walker ω) {max : Int}

theorem accepts_count_exact (type : HeapClass) (nonneg : 0 ≤ max) :
    Accepts (countExact walker type max) := by
  refine accepts_given (normalize_bound_ok nonneg) fun bound => ?_
  refine accepts_ite (accepts_pure 0) ?_
  exact accepts_bind (accepts_step _) fun tag => accepts_call _

theorem accepts_count_any (type : HeapClass) (nonneg : 0 ≤ max) :
    Accepts (countAny walker type max) := by
  refine accepts_given (normalize_bound_ok nonneg) fun bound => ?_
  exact accepts_bind (accepts_step _) fun tag => accepts_call _

theorem accepts_instances_of (type : HeapClass) (nonneg : 0 ≤ max) :
    Accepts (instancesOf walker type max) := by
  refine accepts_given (normalize_bound_ok nonneg) fun bound => ?_
  refine accepts_ite (accepts_pure []) ?_
  exact accepts_bind (accepts_step _) fun tag => accepts_call _

theorem accepts_instances_of_any (type : HeapClass) (nonneg : 0 ≤ max) :
    Accepts (instancesOfAny walker type max) := by
  refine accepts_given (normalize_bound_ok nonneg) fun bound => ?_
  exact accepts_bind (accepts_step _) fun tag => accepts_call _

theorem accepts_abandon (tag : Tag) (reason : String) :
    Accepts (abandon tag reason : Query ω ScanReport) := by
  refine accepts_bind (accepts_step _) fun removed => ?_
  cases removed with
  | none => exact accepts_fail nofun
  | some report => exact accepts_pure report

theorem accepts_conclude (tag : Tag) (outcome : Outcome WalkerError Unit) :
    Accepts (conclude tag outcome : Query ω ScanReport) := by
  cases outcome with
  | ok done =>
      refine accepts_bind (accepts_step _) fun finished => ?_
      cases finished with
      | ok report => exact accepts_pure report
      | error cause =>
          cases cause with
          | notComplete named => exact accepts_abandon tag _
          | unknownTag named => exact accepts_fail nofun
  | error failure => cases failure <;> exact accepts_abandon tag _

theorem accepts_cardinality (type : HeapClass) (nonneg : 0 ≤ max) :
    Accepts (cardinality walker type max) := by
  rw [cardinality_eq]
  refine accepts_given (normalize_bound_ok nonneg) fun bound => ?_
  refine accepts_bind (accepts_step _) fun now => ?_
  refine accepts_bind (accepts_step _) fun tag => ?_
  exact accepts_bind (accepts_lift _) fun outcome => accepts_conclude tag outcome

theorem open_stream_innocent (census : Census) (tag : Tag) : ¬ Outcome.Blames (census.openStream tag) := by
  by_cases opens : census.Opens tag
  · rw [Census.open_stream_opens opens]
    exact Outcome.innocent_ok _
  · obtain ⟨failure, failed, refusal⟩ := Census.open_stream_refused opens
    rw [failed]
    rintro ⟨text, same⟩
    cases same
    cases refusal

theorem accepts_enumerate (type : HeapClass) (nonneg : 0 ≤ max) :
    Accepts (enumerate walker type max) := by
  refine accepts_given (normalize_bound_ok nonneg) fun bound => ?_
  refine accepts_bind (accepts_step _) fun tag => ?_
  refine accepts_ite (accepts_pure _) (accepts_look fun session => ?_)
  exact accepts_bind (open_stream_innocent session.census tag) fun stream => accepts_pure _

theorem for_each_innocent (type : HeapClass) (nonneg : 0 ≤ max) :
    Activity.Gives (fun delivery => ¬ Outcome.Blames delivery.outcome)
      (forEachInstance walker type max) := by
  obtain ⟨bound, given⟩ := normalize_bound_ok nonneg
  unfold forEachInstance
  rw [given]
  refine Activity.gives_bind _ (accepts_enumerate walker type nonneg) fun outcome innocent => ?_
  cases outcome with
  | error failure => exact fun blames => innocent (Outcome.blames_error blames)
  | ok feed =>
      refine Activity.gives_bind _ (Activity.gives_any _) fun taken _ => ?_
      refine Activity.gives_bind _ (Activity.gives_any _) fun left _ => ?_
      cases taken.2.stream.fault with
      | none => exact Outcome.innocent_ok _
      | some fault => exact Outcome.innocent_walker (Outcome.fail (.fault fault) : Outcome WalkerError Nat)

theorem accepts_arrays_over (arrays components : List HeapClass) :
    Accepts (arraysOver walker arrays components) := by
  induction components generalizing arrays with
  | nil => exact accepts_pure arrays
  | cons component components ih =>
      refine accepts_bind (accepts_attempt _) fun found => ?_
      cases found with
      | none => exact ih arrays
      | some array => exact ih (insertClass array arrays)

theorem accepts_loaded_by (name : String) (types : List HeapClass) (loaders : List HeapObject) :
    Accepts (loadedBy walker name types loaders) := by
  induction loaders generalizing types with
  | nil => exact accepts_pure types
  | cons loader loaders ih =>
      refine accepts_bind (accepts_attempt _) fun found => ?_
      cases found with
      | none => exact ih types
      | some type => exact ih (insertClass type types)

theorem accepts_resolve_base (base : String) : Accepts (resolveBase walker base) := by
  unfold resolveBase
  split
  · exact accepts_bind (accepts_step _) fun type => accepts_pure type.toList
  · refine accepts_bind (accepts_attempt _) fun own => ?_
    refine accepts_bind (accepts_call _) fun loaderClass => ?_
    refine accepts_bind (accepts_instances_of_any walker loaderClass (Int.le_refl 0)) fun loaders => ?_
    exact accepts_loaded_by walker base own.toList loaders

theorem accepts_resolve_dimensions (base : String) (dimensions : Nat) :
    Accepts (resolveDimensions walker base dimensions) := by
  induction dimensions with
  | zero => exact accepts_resolve_base walker base
  | succ dimensions ih => exact accepts_bind ih fun components => accepts_arrays_over walker [] components

theorem accepts_resolve {name : String} (parses : ∃ parsed, TypeName.parse name = .ok parsed) :
    Accepts (resolve walker name) := by
  obtain ⟨parsed, given⟩ := parses
  refine accepts_given ⟨parsed, by rw [given]; rfl⟩ fun parsed => ?_
  refine accepts_bind (accepts_step _) fun remembered => ?_
  cases remembered with
  | some types => exact accepts_pure types
  | none =>
      refine accepts_bind (accepts_resolve_dimensions walker parsed.base parsed.dimensions) fun types => ?_
      exact accepts_bind (accepts_step _) fun _ => accepts_pure types

theorem accepts_resolve_some {name : String} (parses : ∃ parsed, TypeName.parse name = .ok parsed) :
    Accepts (resolveSome walker name) := by
  refine accepts_bind (accepts_resolve walker parses) fun types => ?_
  exact accepts_ite (accepts_bind (accepts_fail nofun) fun _ => accepts_pure types) (accepts_pure types)

theorem accepts_sum_over {count : HeapClass → Query ω UInt32} (accepts : ∀ type, Accepts (count type))
    (types : List HeapClass) : Accepts (sumOver count types) := by
  induction types with
  | nil => exact accepts_pure 0
  | cons type types ih =>
      refine accepts_bind (accepts type) fun first => ?_
      exact accepts_bind ih fun others => accepts_pure _

theorem accepts_count_of {name : String} (parses : ∃ parsed, TypeName.parse name = .ok parsed) :
    Accepts (countOf walker name) := by
  refine accepts_bind (accepts_resolve_some walker parses) fun types => ?_
  refine accepts_bind (accepts_sum_over (fun type => accepts_count_exact walker type (Int.le_refl 0)) types)
    fun count => ?_
  exact accepts_pure _

theorem accepts_count_of_any {name : String} (parses : ∃ parsed, TypeName.parse name = .ok parsed) :
    Accepts (countOfAny walker name) := by
  refine accepts_bind (accepts_resolve_some walker parses) fun types => ?_
  refine accepts_bind (accepts_sum_over (fun type => accepts_count_any walker type (Int.le_refl 0)) types)
    fun count => ?_
  exact accepts_pure _

theorem all_innocent {outcomes : List (Outcome QueryError α)}
    (innocent : ∀ outcome ∈ outcomes, ¬ outcome.Blames) : ¬ Outcome.Blames (outcomes.mapM id) := by
  induction outcomes with
  | nil => exact Outcome.innocent_ok []
  | cons outcome outcomes ih =>
      have others := ih fun other member => innocent other (List.mem_cons_of_mem _ member)
      rw [List.mapM_cons]
      cases outcome with
      | error failure =>
          have first := innocent (.error failure) List.mem_cons_self
          exact fun blames => first (Outcome.blames_error blames)
      | ok value =>
          cases rest : outcomes.mapM id with
          | ok values => exact Outcome.innocent_ok _
          | error failure =>
              rw [rest] at others
              exact fun blames => others (Outcome.blames_error blames)

theorem accepts_scan_all (types : List HeapClass) : Accepts (scanAll walker types) := by
  refine accepts_bind (accepts_step _) fun turns => ?_
  refine Activity.gives_bind (fun outcome => ∃ outcomes, outcome = .ok outcomes ∧
    ∀ each ∈ outcomes, ¬ Outcome.Blames each) ?_ ?_
  · refine Activity.gives_bind _ (Activity.gives_interleave turns ?_) fun outcomes innocent =>
      ⟨outcomes, rfl, innocent⟩
    intro scan member
    obtain ⟨type, _, rfl⟩ := List.mem_map.mp member
    exact accepts_cardinality walker type (Int.le_refl 0)
  · rintro _ ⟨outcomes, rfl, innocent⟩
    exact all_innocent innocent

theorem merged_innocent (tallies : List Tally) {rows : Nat} (positive : rows ≠ 0) (withoutPrimitives : Bool) :
    ¬ Outcome.Blames ((Ranking.topMerged tallies rows withoutPrimitives).mapError QueryError.ofRanking) := by
  simp only [Ranking.topMerged, if_neg positive]
  cases gatherNames ((tallies.flatMap Tally.rows).filter fun row => Ranking.admits withoutPrimitives row.1) with
  | ok named => exact Outcome.innocent_ok _
  | error payload => exact Outcome.innocent_panic payload

theorem accepts_top_instances {name : String} {rows : Nat} (withoutPrimitives : Bool) (positive : rows ≠ 0)
    (parses : ∃ parsed, TypeName.parse name = .ok parsed) :
    Accepts (topInstances walker name rows withoutPrimitives) := by
  unfold topInstances
  rw [if_neg positive]
  refine accepts_bind (accepts_step _) fun started => ?_
  refine accepts_bind (accepts_resolve_some walker parses) fun types => ?_
  refine accepts_bind (accepts_scan_all walker types) fun reports => ?_
  refine accepts_bind ?_ fun entries => accepts_bind (accepts_step _) fun now => accepts_pure _
  exact merged_innocent _ positive withoutPrimitives

/-- The query does nothing but blame an argument. -/
def Refuses (query : Query ω α) : Prop :=
  ∃ text, ∀ session, query.perform session = (.error (.error (.invalidArgument text)), session)

theorem refuses_bind {query : Query ω α} (refuses : Refuses query) (next : α → Query ω β) :
    Refuses (query >>= next) := by
  obtain ⟨text, refused⟩ := refuses
  refine ⟨text, fun session => ?_⟩
  rw [perform_bind, refused]

theorem refuses_given {given : Except QueryError α} {text : String}
    (wrong : given = .error (.invalidArgument text)) : Refuses (ofExcept given : Query ω α) := by
  subst wrong
  exact ⟨text, fun session => rfl⟩

theorem bound_wrong (negative : max < 0) : ∃ text, normalizeBound max = .error (.invalidArgument text) := by
  unfold normalizeBound
  rw [if_pos negative]
  exact ⟨_, rfl⟩

theorem refuses_bound (negative : max < 0) (next : UInt32 → Query ω α) :
    Refuses (ofExcept (normalizeBound max) >>= next) := by
  obtain ⟨text, wrong⟩ := bound_wrong negative
  exact refuses_bind (refuses_given wrong) next

theorem for_each_refused (type : HeapClass) (negative : max < 0) :
    ∃ text, forEachInstance walker type max =
      pure ⟨[], .error (.error (.invalidArgument text))⟩ := by
  obtain ⟨text, wrong⟩ := bound_wrong negative
  refine ⟨text, ?_⟩
  unfold forEachInstance
  rw [wrong]
  rfl

inductive Operation where
  | countExact (type : HeapClass) (max : Int)
  | countAny (type : HeapClass) (max : Int)
  | instancesOf (type : HeapClass) (max : Int)
  | instancesOfAny (type : HeapClass) (max : Int)
  | cardinality (type : HeapClass) (max : Int)
  | enumerate (type : HeapClass) (max : Int)
  | forEach (type : HeapClass) (max : Int)
  | resolve (name : String)
  | countOf (name : String)
  | countOfAny (name : String)
  | topInstances (name : String) (rows : Nat) (withoutPrimitives : Bool)

namespace Operation

def query (walker : Walker ω) : Operation → Query ω Unit
  | countExact type max => do let _ ← Query.countExact walker type max
  | countAny type max => do let _ ← Query.countAny walker type max
  | instancesOf type max => do let _ ← Query.instancesOf walker type max
  | instancesOfAny type max => do let _ ← Query.instancesOfAny walker type max
  | cardinality type max => do let _ ← Query.cardinality walker type max
  | enumerate type max => do let _ ← Query.enumerate walker type max
  | forEach type max => ExceptT.mk do
      let delivery ← Query.forEachInstance walker type max
      return delivery.outcome.map fun _ => ()
  | resolve name => do let _ ← Query.resolve walker name
  | countOf name => do let _ ← Query.countOf walker name
  | countOfAny name => do let _ ← Query.countOfAny walker name
  | topInstances name rows withoutPrimitives => do
      let _ ← Query.topInstances walker name rows withoutPrimitives

def Unreadable (name : String) : Prop := ∀ parsed, TypeName.parse name ≠ .ok parsed

/-- A bound is negative, a ranking has no rows, or a name does not parse. -/
def Rejected : Operation → Prop
  | countExact _ max | countAny _ max | instancesOf _ max | instancesOfAny _ max
  | cardinality _ max | enumerate _ max | forEach _ max => max < 0
  | resolve name | countOf name | countOfAny name => Unreadable name
  | topInstances name rows _ => rows = 0 ∨ Unreadable name

theorem readable {name : String} (readable : ¬ Unreadable name) :
    ∃ parsed, TypeName.parse name = .ok parsed := by
  simpa [Unreadable] using readable

theorem accepts_value {query : Query ω α} (accepts : Accepts query) :
    Accepts (do let _ ← query) :=
  accepts_bind accepts fun _ => accepts_pure ()

theorem accepts_of_not_rejected (operation : Operation) (accepted : ¬ operation.Rejected) :
    Accepts (operation.query walker) := by
  cases operation with
  | countExact type max => exact accepts_value (accepts_count_exact walker type (Int.not_lt.mp accepted))
  | countAny type max => exact accepts_value (accepts_count_any walker type (Int.not_lt.mp accepted))
  | instancesOf type max => exact accepts_value (accepts_instances_of walker type (Int.not_lt.mp accepted))
  | instancesOfAny type max =>
      exact accepts_value (accepts_instances_of_any walker type (Int.not_lt.mp accepted))
  | cardinality type max => exact accepts_value (accepts_cardinality walker type (Int.not_lt.mp accepted))
  | enumerate type max => exact accepts_value (accepts_enumerate walker type (Int.not_lt.mp accepted))
  | forEach type max =>
      refine Activity.gives_bind _ (for_each_innocent walker type (Int.not_lt.mp accepted)) ?_
      intro delivery innocent blames
      cases ended : delivery.outcome with
      | ok amount =>
          rw [ended] at blames
          exact Outcome.innocent_ok () blames
      | error failure =>
          rw [ended] at innocent blames
          exact innocent (Outcome.blames_error blames)
  | resolve name => exact accepts_value (accepts_resolve walker (readable accepted))
  | countOf name => exact accepts_value (accepts_count_of walker (readable accepted))
  | countOfAny name => exact accepts_value (accepts_count_of_any walker (readable accepted))
  | topInstances name rows withoutPrimitives =>
      obtain ⟨positive, parses⟩ := not_or.mp accepted
      exact accepts_value (accepts_top_instances walker withoutPrimitives positive (readable parses))

theorem refuses_resolve {name : String} (unreadable : Unreadable name) :
    Refuses (Query.resolve walker name) := by
  cases parsed : TypeName.parse name with
  | ok value => exact absurd parsed (unreadable value)
  | error cause =>
      have wrong : (TypeName.parse name).mapError QueryError.ofTypeName =
          .error (.invalidArgument cause.message) := by
        rw [parsed]
        rfl
      exact refuses_bind (refuses_given wrong) _

theorem refuses_resolve_some {name : String} (unreadable : Unreadable name) :
    Refuses (resolveSome walker name) :=
  refuses_bind (refuses_resolve walker unreadable) _

theorem refuses_top_instances {name : String} {rows : Nat} (withoutPrimitives : Bool)
    (rejected : rows = 0 ∨ Unreadable name) :
    Refuses (Query.topInstances walker name rows withoutPrimitives) := by
  unfold Query.topInstances
  by_cases none : rows = 0
  · rw [if_pos none]
    exact ⟨_, fun session => rfl⟩
  · rw [if_neg none]
    have unreadable := rejected.resolve_left none
    obtain ⟨text, refused⟩ := refuses_resolve_some walker unreadable
    refine ⟨text, fun session => ?_⟩
    refine (perform_ok (perform_step _ session)).trans ?_
    rw [perform_bind, refused]

theorem refuses_of_rejected (operation : Operation) (rejected : operation.Rejected) :
    Refuses (operation.query walker) := by
  cases operation with
  | countExact type max => exact refuses_bind (refuses_bound rejected _) _
  | countAny type max => exact refuses_bind (refuses_bound rejected _) _
  | instancesOf type max => exact refuses_bind (refuses_bound rejected _) _
  | instancesOfAny type max => exact refuses_bind (refuses_bound rejected _) _
  | cardinality type max => exact refuses_bind (refuses_bound rejected _) _
  | enumerate type max => exact refuses_bind (refuses_bound rejected _) _
  | forEach type max =>
      obtain ⟨text, refused⟩ := for_each_refused walker type rejected
      refine ⟨text, fun session => ?_⟩
      simp only [query, refused]
      rfl
  | resolve name => exact refuses_bind (refuses_resolve walker rejected) _
  | countOf name => exact refuses_bind (refuses_bind (refuses_resolve_some walker rejected) _) _
  | countOfAny name => exact refuses_bind (refuses_bind (refuses_resolve_some walker rejected) _) _
  | topInstances name rows withoutPrimitives =>
      exact refuses_bind (refuses_top_instances walker withoutPrimitives rejected) _

/-- An argument is called invalid exactly when it is wrong, and then nothing was done: the session is what
it was, and a walker that counts its calls has counted none. -/
theorem rejected_exactly_and_untouched (operation : Operation) (session : Session ω) (calls : Nat) :
    (Outcome.Blames ((operation.query walker).perform session).1 ↔ operation.Rejected) ∧
      (operation.Rejected → ((operation.query walker).perform session).2 = session) ∧
      (operation.Rejected →
        ((operation.query walker.counted).perform (session.counting calls)).2 = session.counting calls) := by
  refine ⟨⟨fun blames => ?_, fun rejected => ?_⟩, fun rejected => ?_, fun rejected => ?_⟩
  · by_contra accepted
    exact Activity.gives_run (accepts_of_not_rejected walker operation accepted) session blames
  · obtain ⟨text, refused⟩ := refuses_of_rejected walker operation rejected
    exact ⟨text, by rw [refused]⟩
  · obtain ⟨text, refused⟩ := refuses_of_rejected walker operation rejected
    rw [refused]
  · obtain ⟨text, refused⟩ := refuses_of_rejected walker.counted operation rejected
    rw [refused]

-- Of an operation that is not rejected the walker does hear.
example (type : HeapClass) (session : Session ω) (calls : Nat) :
    ((Query.countAny walker.counted type 0).perform (session.counting calls)).2.world.1 = calls + 1 := by
  rfl

end Operation

end Query

end HeapCensus
