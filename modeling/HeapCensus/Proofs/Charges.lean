import HeapCensus.Proofs.Custody
import HeapCensus.Proofs.Rejection

set_option autoImplicit false

namespace HeapCensus.Query

variable {ω M α β : Type} [AddCommMonoid M]

/-- What a count or a list that is asked under a tag makes of the walker's state. -/
inductive Asks (walker : Walker ω) (tag : Tag) : (ω → ω) → Prop
  | countExact (type : HeapClass) (bound : UInt32) :
      Asks walker tag fun world => ((walker.countExact type tag bound).call world).2
  | countAny (type : HeapClass) (bound : UInt32) :
      Asks walker tag fun world => ((walker.countAny type tag bound).call world).2
  | instancesExact (type : HeapClass) (bound : UInt32) :
      Asks walker tag fun world => ((walker.instancesExact type tag bound).call world).2
  | instancesAny (type : HeapClass) (bound : UInt32) :
      Asks walker tag fun world => ((walker.instancesAny type tag bound).call world).2

inductive Visits (walker : Walker ω) : (ω → ω) → Prop
  | classLoaderClass : Visits walker fun world => (walker.classLoaderClass.call world).2
  | loadClass (loader : Option HeapObject) (name : String) :
      Visits walker fun world => ((walker.loadClass loader name).call world).2
  | arrayClass (component : HeapClass) :
      Visits walker fun world => ((walker.arrayClass component).call world).2
  | primitiveClass (name : String) :
      Visits walker fun world => ((walker.primitiveClass name).run world).2

structure Charging (walker : Walker ω) (custody : Custody (Session ω) M) (took : Tag → M) (spent : M) : Prop where
  looks : ∀ session own, custody.Allows session own session own
  takes : ∀ session own, custody.Allows session own (session.setRegistry session.census.registry.takeTag.2)
    (own + took session.census.registry.takeTag.1)
  asks : ∀ tag change, Asks walker tag change → ∀ session own,
    custody.Allows session (own + took tag) (session.setWorld (change session.world)) (own + spent)
  visits : ∀ change, Visits walker change → ∀ session own,
    custody.Allows session own (session.setWorld (change session.world)) own
  consults : ∀ session resolutions own, custody.Allows session own (session.setResolutions resolutions) own

variable {custody : Custody (Session ω) M}

def Bears (custody : Custody (Session ω) M) (post : M → Prop) (query : Query ω α) (own : M) : Prop :=
  Activity.Carries custody (fun final _ => post final) query.run own

def Costs (custody : Custody (Session ω) M) (post : M → Prop) (query : Query ω α) : Prop :=
  Bears custody post query 0

theorem bears_bind {middle post : M → Prop} {query : Query ω β} {next : β → Query ω α} {own : M}
    (first : Bears custody middle query own) (later : ∀ own value, middle own → Bears custody post (next value) own)
    (failed : ∀ own, middle own → post own) : Bears custody post (query >>= next) own := by
  refine Activity.carries_bind _ ?_ first
  intro own outcome reached
  cases outcome with
  | ok value => exact later own value reached
  | error failure => exact failed own reached

theorem bears_lift {post : M → Prop} {activity : Activity (Session ω) α} {own : M}
    (carries : Activity.Carries custody (fun final _ => post final) activity own) :
    Bears custody post (ExceptT.lift activity) own := by
  refine Activity.carries_bind (fun final _ => post final) ?_ carries
  exact fun final result reached => reached

theorem carries_stepped {post : M → Outcome QueryError α → Prop} {f : Session ω → β × Session ω}
    {next : β → Query ω α} {own : M}
    (stepped : ∀ session, custody.kept session → ∃ later, custody.Allows session own (f session).2 later ∧
      Activity.Carries custody post (next (f session).1).run later) :
    Activity.Carries custody post (Query.step f >>= next).run own := by
  intro session kept
  obtain ⟨later, allowed, onwards⟩ := stepped session kept
  obtain ⟨still, moved⟩ := allowed kept
  exact ⟨still, later, moved, onwards⟩

theorem bears_lifted {middle : M → β → Prop} {post : M → Prop} {activity : Activity (Session ω) β}
    {next : β → Query ω α} {own : M} (first : Activity.Carries custody middle activity own)
    (later : ∀ own value, middle own value → Bears custody post (next value) own) :
    Bears custody post (ExceptT.lift activity >>= next) own := by
  have lifted : (ExceptT.lift activity >>= next).run = Dialogue.bind activity fun value => (next value).run :=
    Activity.bind_assoc _ _ _
  rw [Bears, lifted]
  exact Activity.carries_bind middle later first

theorem bears_free {query : Query ω α} (free : Costs custody (· = 0) query) (own : M) :
    Bears custody (· = own) query own := by
  have beside := Activity.carries_beside own free
  rw [add_zero] at beside
  refine Activity.carries_weaken ?_ beside
  rintro _ _ ⟨_, rfl, rfl⟩
  exact add_zero own

theorem costs_weaken {post wider : M → Prop} {query : Query ω α} (costs : Costs custody post query)
    (weaken : ∀ own, post own → wider own) : Costs custody wider query :=
  Activity.carries_weaken (fun own _ => weaken own) costs

theorem costs_bind {first second post : M → Prop} {query : Query ω β} {next : β → Query ω α}
    (one : Costs custody first query) (other : ∀ value, Costs custody second (next value))
    (failed : ∀ own, first own → post own) (added : ∀ own more, first own → second more → post (own + more)) :
    Costs custody post (query >>= next) := by
  refine bears_bind one (fun own value reached => ?_) failed
  have beside := Activity.carries_beside own (other value)
  rw [add_zero] at beside
  refine Activity.carries_weaken ?_ beside
  rintro _ _ ⟨more, rfl, charged⟩
  exact added own more reached charged

theorem costs_free {post : M → Prop} {query : Query ω β} {next : β → Query ω α}
    (free : Costs custody (· = 0) query) (later : ∀ value, Costs custody post (next value)) (nothing : post 0) :
    Costs custody post (query >>= next) := by
  refine costs_bind free later ?_ ?_
  · rintro _ rfl
    exact nothing
  · rintro _ more rfl charged
    rw [zero_add]
    exact charged

theorem costs_nothing {query : Query ω β} {next : β → Query ω α} (free : Costs custody (· = 0) query)
    (later : ∀ value, Costs custody (· = 0) (next value)) : Costs custody (· = 0) (query >>= next) :=
  costs_free free later rfl

theorem costs_pure {post : M → Prop} (value : α) (nothing : post 0) : Costs custody post (pure value : Query ω α) :=
  nothing

theorem costs_fail {post : M → Prop} (cause : QueryError) (nothing : post 0) :
    Costs custody post (fail cause : Query ω α) := nothing

theorem costs_given {post : M → Prop} (outcome : Outcome QueryError α) (nothing : post 0) :
    Costs custody post (ExceptT.mk (pure outcome) : Query ω α) := nothing

theorem costs_value {post : M → Prop} {query : Query ω β} {result : β → α} (costs : Costs custody post query) :
    Costs custody post (do return result (← query)) := by
  refine bears_bind costs (fun own value reached => ?_) fun own reached => reached
  exact reached

theorem costs_called {f : Session ω → Outcome QueryError α × Session ω}
    (allowed : ∀ session own, custody.Allows session own (f session).2 own) :
    Costs custody (· = 0) (ExceptT.mk (Activity.step f)) :=
  Activity.carries_step fun session => ⟨0, allowed session 0, rfl⟩

theorem costs_step {f : Session ω → α × Session ω}
    (allowed : ∀ session own, custody.Allows session own (f session).2 own) :
    Costs custody (· = 0) (Query.step f) :=
  costs_called (f := fun session => (.ok (f session).1, (f session).2)) allowed

variable {walker : Walker ω} {took : Tag → M} {spent : M} (charging : Charging walker custody took spent)

include charging

theorem costs_look (view : Session ω → α) : Costs custody (· = 0) (look view) := costs_step charging.looks

theorem costs_call {walk : Walk ω α} (visits : Visits walker fun world => (walk.call world).2) :
    Costs custody (· = 0) (call walk) := costs_called (charging.visits _ visits)

theorem costs_attempt {walk : Walk ω α} (visits : Visits walker fun world => (walk.call world).2) :
    Costs custody (· = 0) (attempt walk) := costs_called (charging.visits _ visits)

theorem costs_consult (f : Resolutions → Nat → α × Resolutions) : Costs custody (· = 0) (consult f : Query ω α) :=
  costs_step fun session own => charging.consults session _ own

theorem carries_look {post : M → Outcome QueryError α → Prop} {view : Session ω → β} {next : β → Query ω α}
    {own : M}
    (later : ∀ session, custody.kept session → Activity.Carries custody post (next (view session)).run own) :
    Activity.Carries custody post (look view >>= next).run own := by
  apply carries_stepped
  intro session kept
  exact ⟨own, charging.looks session own, later session kept⟩

theorem carries_tag {post : M → Outcome QueryError α → Prop} {next : Tag → Query ω α}
    (later : ∀ tag, Activity.Carries custody post (next tag).run (took tag)) :
    Activity.Carries custody post (takeTag >>= next).run 0 := by
  apply carries_stepped
  intro session _
  have taken := charging.takes session 0
  rw [zero_add] at taken
  exact ⟨_, taken, later _⟩

theorem costs_tagged {walk : Tag → Walk ω α} (asks : ∀ tag, Asks walker tag fun world => ((walk tag).call world).2) :
    Costs custody (· = spent) (takeTag >>= fun tag => call (walk tag)) := by
  refine carries_tag charging fun tag => Activity.carries_step fun session => ⟨spent, ?_, rfl⟩
  have asked := charging.asks tag _ (asks tag) session 0
  rw [zero_add, zero_add] at asked
  exact asked

omit charging in
theorem costs_bounded {post : M → Prop} {max : Int} {next : UInt32 → Query ω α} (refused : max < 0 → post 0)
    (accepted : 0 ≤ max → ∀ bound, Costs custody post (next bound)) :
    Costs custody post (ofExcept (normalizeBound max) >>= next) := by
  by_cases negative : max < 0
  · obtain ⟨text, wrong⟩ := bound_wrong negative
    rw [wrong]
    exact refused negative
  · obtain ⟨bound, given⟩ := normalize_bound_ok (Int.not_lt.mp negative)
    rw [given]
    exact accepted (Int.not_lt.mp negative) bound

theorem costs_count_any (type : HeapClass) (max : Int) :
    Costs custody (· = if max < 0 then 0 else spent) (countAny walker type max) := by
  apply costs_bounded
  · intro negative
    rw [if_pos negative]
  · intro nonneg bound
    rw [if_neg (Int.not_lt.mpr nonneg)]
    exact costs_tagged charging fun tag => .countAny type bound

theorem costs_instances_of_any (type : HeapClass) (max : Int) :
    Costs custody (· = if max < 0 then 0 else spent) (instancesOfAny walker type max) := by
  apply costs_bounded
  · intro negative
    rw [if_pos negative]
  · intro nonneg bound
    rw [if_neg (Int.not_lt.mpr nonneg)]
    exact costs_tagged charging fun tag => .instancesAny type bound

theorem costs_count_exact (type : HeapClass) (max : Int) :
    Costs custody (· = if max < 0 ∨ type.isConcrete = false then 0 else spent) (countExact walker type max) := by
  apply costs_bounded
  · intro negative
    rw [if_pos (.inl negative)]
  · intro nonneg bound
    cases concrete : type.isConcrete with
    | false => exact costs_pure 0 (if_pos (.inr rfl)).symm
    | true =>
        rw [if_neg (by simp [Int.not_lt.mpr nonneg])]
        exact costs_tagged charging fun tag => .countExact type bound

theorem costs_instances_of (type : HeapClass) (max : Int) :
    Costs custody (· = if max < 0 ∨ type.isConcrete = false then 0 else spent) (instancesOf walker type max) := by
  apply costs_bounded
  · intro negative
    rw [if_pos (.inl negative)]
  · intro nonneg bound
    cases concrete : type.isConcrete with
    | false => exact costs_pure [] (if_pos (.inr rfl)).symm
    | true =>
        rw [if_neg (by simp [Int.not_lt.mpr nonneg])]
        exact costs_tagged charging fun tag => .instancesExact type bound

theorem costs_arrays_over (arrays components : List HeapClass) :
    Costs custody (· = 0) (arraysOver walker arrays components) := by
  induction components generalizing arrays with
  | nil => exact costs_pure arrays rfl
  | cons component components ih =>
      apply costs_nothing (costs_attempt charging (.arrayClass component))
      intro found
      cases found with
      | none => exact ih arrays
      | some array => exact ih (insertClass array arrays)

theorem costs_loaded_by (name : String) (types : List HeapClass) (loaders : List HeapObject) :
    Costs custody (· = 0) (loadedBy walker name types loaders) := by
  induction loaders generalizing types with
  | nil => exact costs_pure types rfl
  | cons loader loaders ih =>
      apply costs_nothing (costs_attempt charging (.loadClass (some loader) name))
      intro found
      cases found with
      | none => exact ih types
      | some type => exact ih (insertClass type types)

def AtMostOnce (base : String) (spent own : M) : Prop := own = 0 ∨ isPrimitiveName base = false ∧ own = spent

theorem costs_resolve_base (base : String) : Costs custody (AtMostOnce base spent) (resolveBase walker base) := by
  have nothing : AtMostOnce base spent (0 : M) := .inl rfl
  unfold resolveBase
  cases primitive : isPrimitiveName base with
  | true =>
      have free : Costs custody (· = 0) (step fun session =>
          (((walker.primitiveClass base).run session.world).1,
            session.setWorld ((walker.primitiveClass base).run session.world).2)) :=
        costs_step (charging.visits _ (.primitiveClass base))
      exact costs_free free (fun type => costs_pure type.toList nothing) nothing
  | false =>
      apply costs_free (costs_attempt charging (.loadClass none base)) _ nothing
      intro own
      apply costs_free (costs_call charging .classLoaderClass) _ nothing
      intro loaderClass
      apply costs_bind (costs_instances_of_any charging loaderClass 0)
        (fun loaders => costs_loaded_by charging base own.toList loaders)
      · rintro _ rfl
        exact .inr ⟨primitive, rfl⟩
      · rintro _ _ rfl rfl
        exact .inr ⟨primitive, add_zero _⟩

theorem costs_resolve_dimensions (base : String) (dimensions : Nat) :
    Costs custody (AtMostOnce base spent) (resolveDimensions walker base dimensions) := by
  induction dimensions with
  | zero => exact costs_resolve_base charging base
  | succ dimensions ih =>
      apply costs_bind ih fun components => costs_arrays_over charging [] components
      · intro own reached
        exact reached
      · rintro own _ reached rfl
        rw [add_zero]
        exact reached

/-- A name is searched for at most once, whatever its dimensions, and the name of a primitive never. -/
def SearchesOnce (text : String) (spent own : M) : Prop :=
  own = 0 ∨ own = spent ∧ ∃ name, TypeName.parse text = .ok name ∧ isPrimitiveName name.base = false

def lookOn (walker : Walker ω) (name : TypeName) : Option (List HeapClass) → Query ω (List HeapClass)
  | some types => pure types
  | none => do
      let types ← resolveFresh walker name
      consult fun resolutions now => ((), resolutions.remember name types now)
      return types

omit charging in
theorem resolve_parsed (walker : Walker ω) {text : String} {name : TypeName} (parsed : TypeName.parse text = .ok name) :
    resolve walker text = consult (·.lookup name ·) >>= lookOn walker name := by
  unfold resolve
  rw [parsed]
  rfl

theorem costs_look_on {text : String} {name : TypeName} (parsed : TypeName.parse text = .ok name)
    (found : Option (List HeapClass)) : Costs custody (SearchesOnce text spent) (lookOn walker name found) := by
  cases found with
  | some types => exact .inl rfl
  | none =>
      have remembered : ∀ types, Costs custody (· = 0) (do
          consult fun resolutions now => ((), resolutions.remember name types now)
          return types : Query ω (List HeapClass)) :=
        fun types => costs_value (costs_consult charging _)
      have once : ∀ own, AtMostOnce name.base spent own → SearchesOnce text spent own := by
        rintro own (none | ⟨other, once⟩)
        · exact .inl none
        · exact .inr ⟨once, name, parsed, other⟩
      apply costs_bind (costs_resolve_dimensions charging name.base name.dimensions) remembered once
      rintro own _ reached rfl
      rw [add_zero]
      exact once own reached

theorem costs_resolve (text : String) : Costs custody (SearchesOnce text spent) (resolve walker text) := by
  have nothing : SearchesOnce text spent (0 : M) := .inl rfl
  cases parsed : TypeName.parse text with
  | ok name =>
      rw [resolve_parsed walker parsed]
      exact costs_free (costs_consult charging (·.lookup name ·)) (costs_look_on charging parsed) nothing
  | error cause =>
      unfold resolve
      rw [parsed]
      exact nothing

theorem costs_resolve_some (text : String) : Costs custody (SearchesOnce text spent) (resolveSome walker text) := by
  have checked : ∀ types : List HeapClass, Costs custody (· = 0) (do
      if types.isEmpty then fail (.unresolved (shownName text))
      return types : Query ω (List HeapClass)) := by
    intro types
    cases types with
    | nil => exact costs_fail (.unresolved (shownName text)) rfl
    | cons type types => exact costs_pure (type :: types) rfl
  apply costs_bind (costs_resolve charging text) checked fun own reached => reached
  rintro own _ reached rfl
  rw [add_zero]
  exact reached

def Repeats (spent own : M) : Prop := ∃ amount : Nat, own = amount • spent

omit charging in
theorem repeats_nothing : Repeats spent (0 : M) := ⟨0, (zero_nsmul spent).symm⟩

omit charging in
theorem repeats_once : Repeats spent spent := ⟨1, (one_nsmul spent).symm⟩

omit charging in
theorem repeats_charged {choice : Prop} [Decidable choice] {query : Query ω α}
    (costs : Costs custody (· = if choice then 0 else spent) query) : Costs custody (Repeats spent) query := by
  apply costs_weaken costs
  rintro _ rfl
  by_cases chosen : choice
  · rw [if_pos chosen]
    exact repeats_nothing
  · rw [if_neg chosen]
    exact repeats_once

omit charging in
theorem repeats_add {own more : M} (one : Repeats spent own) (other : Repeats spent more) :
    Repeats spent (own + more) := by
  obtain ⟨first, rfl⟩ := one
  obtain ⟨second, rfl⟩ := other
  exact ⟨first + second, (add_nsmul spent first second).symm⟩

omit charging in
theorem repeats_search {text : String} {own : M} (searches : SearchesOnce text spent own) : Repeats spent own := by
  rcases searches with rfl | ⟨rfl, _⟩
  · exact repeats_nothing
  · exact repeats_once

omit charging in
theorem repeats_bind {query : Query ω β} {next : β → Query ω α} (one : Costs custody (Repeats spent) query)
    (other : ∀ value, Costs custody (Repeats spent) (next value)) : Costs custody (Repeats spent) (query >>= next) :=
  costs_bind one other (fun _ reached => reached) fun _ _ => repeats_add

omit charging in
theorem repeats_sum {count : HeapClass → Query ω UInt32} (counts : ∀ type, Costs custody (Repeats spent) (count type))
    (types : List HeapClass) : Costs custody (Repeats spent) (sumOver count types) := by
  induction types with
  | nil => exact costs_pure 0 repeats_nothing
  | cons type types ih => exact repeats_bind (counts type) fun first => costs_value ih

theorem repeats_count_of (text : String) : Costs custody (Repeats spent) (countOf walker text) := by
  apply repeats_bind (costs_weaken (costs_resolve_some charging text) fun _ => repeats_search)
  intro types
  exact costs_value (repeats_sum (fun type => repeats_charged (costs_count_exact charging type 0)) types)

theorem repeats_count_of_any (text : String) : Costs custody (Repeats spent) (countOfAny walker text) := by
  apply repeats_bind (costs_weaken (costs_resolve_some charging text) fun _ => repeats_search)
  intro types
  exact costs_value (repeats_sum (fun type => repeats_charged (costs_count_any charging type 0)) types)

def Operation.Plain : Operation → Prop
  | countExact _ _ | countAny _ _ | instancesOf _ _ | instancesOfAny _ _ | resolve _ | countOf _ | countOfAny _ => True
  | cardinality _ _ | enumerate _ _ | forEach _ _ | topInstances _ _ _ => False

theorem repeats_plain {operation : Operation} (plain : operation.Plain) :
    Costs custody (Repeats spent) (operation.query walker) := by
  cases operation with
  | cardinality | enumerate | forEach | topInstances => exact plain.elim
  | countExact type max => exact costs_value (repeats_charged (costs_count_exact charging type max))
  | countAny type max => exact costs_value (repeats_charged (costs_count_any charging type max))
  | instancesOf type max => exact costs_value (repeats_charged (costs_instances_of charging type max))
  | instancesOfAny type max => exact costs_value (repeats_charged (costs_instances_of_any charging type max))
  | resolve name => exact costs_value (costs_weaken (costs_resolve charging name) fun _ => repeats_search)
  | countOf name => exact costs_value (repeats_count_of charging name)
  | countOfAny name => exact costs_value (repeats_count_of_any charging name)

/-- What an enumeration carries when its stream is there, or could not be opened. The stream is answered at
once, or has a producer that has still to ask the walker. -/
inductive Opened (walker : Walker ω) (took : Tag → M) (refused : Tag → Prop) (type : HeapClass) (max : Int) :
    M → Outcome QueryError (Feed ω) → Prop
  | rejected (text : String) : max < 0 → Opened walker took refused type max 0 (Outcome.fail (.invalidArgument text))
  | answered (tag : Tag) : 0 ≤ max → type.isConcrete = false →
      Opened walker took refused type max (took tag) (.ok (Feed.finished tag))
  | started (tag : Tag) (bound : UInt32) (stream : Stream) : 0 ≤ max → type.isConcrete = true →
      Opened walker took refused type max (took tag) (.ok ⟨stream, some (producer walker type tag bound)⟩)
  | lost (tag : Tag) (failure : Failure QueryError) : 0 ≤ max → type.isConcrete = true → refused tag →
      Census.Refusal tag failure → Opened walker took refused type max (took tag) (.error failure)

def provide (walker : Walker ω) (type : HeapClass) (bound : UInt32) (tag : Tag) (opened : Outcome QueryError Stream) :
    Query ω (Feed ω) := do
  let stream ← ExceptT.mk (pure opened)
  return { stream := stream, producer := some (producer walker type tag bound) }

omit charging in
theorem provide_opens (walker : Walker ω) {refused : Tag → Prop} {type : HeapClass} {max : Int} (bound : UInt32)
    {tag : Tag} {census : Census} (settled : ¬ census.Opens tag → refused tag) (nonneg : 0 ≤ max)
    (concrete : type.isConcrete = true) :
    Activity.Carries custody (Opened walker took refused type max)
      (provide walker type bound tag (census.openStream tag)).run (took tag) := by
  by_cases opens : census.Opens tag
  · rw [Census.open_stream_opens opens]
    exact .started tag bound (Stream.new tag census.settings.streamCapacity) nonneg concrete
  · obtain ⟨failure, failed, refusal⟩ := Census.open_stream_refused opens
    rw [failed]
    exact .lost tag failure nonneg concrete (settled opens) refusal

theorem enumerate_opens (refused : Tag → Prop)
    (settled : ∀ session tag, custody.kept session → ¬ session.census.Opens tag → refused tag)
    (type : HeapClass) (max : Int) :
    Activity.Carries custody (Opened walker took refused type max) (enumerate walker type max).run 0 := by
  unfold enumerate
  by_cases negative : max < 0
  · obtain ⟨text, wrong⟩ := bound_wrong negative
    rw [wrong]
    exact .rejected _ negative
  · have nonneg := Int.not_lt.mp negative
    obtain ⟨bound, given⟩ := normalize_bound_ok nonneg
    rw [given]
    apply carries_tag charging
    intro tag
    cases concrete : type.isConcrete with
    | false => exact .answered tag nonneg concrete
    | true =>
        apply carries_look charging
        intro session kept
        exact provide_opens walker bound (settled session tag kept) nonneg concrete

end HeapCensus.Query
