import HeapCensus.Proofs.Rejection

set_option autoImplicit false

namespace HeapCensus.Query

variable {ω α β : Type}

structure Recalls (memory : Resolutions) (clock : Nat) (session : Session ω) : Prop where
  resolutions : session.census.resolutions = memory
  clock : session.census.clock = clock

def SparesMemory (activity : Activity (Session ω) α) : Prop :=
  ∀ memory clock, Activity.Within (Recalls memory clock) (fun _ => True) activity

def Spares (query : Query ω α) : Prop := SparesMemory query.run

theorem spares_perform {query : Query ω α} (spares : Spares query) (session : Session ω) :
    Recalls session.census.resolutions session.census.clock (query.perform session).2 :=
  (Activity.run_within (spares _ _) ⟨rfl, rfl⟩).1

theorem spares_memory_bind {activity : Activity (Session ω) α} {next : α → Activity (Session ω) β}
    (first : SparesMemory activity) (later : ∀ result, SparesMemory (next result)) :
    SparesMemory (Dialogue.bind activity next) :=
  fun memory clock => Activity.within_bind _ (first memory clock) fun result _ => later result memory clock

theorem spares_interleave (schedule : List Nat) {activities : List (Activity (Session ω) α)}
    (each : ∀ activity ∈ activities, SparesMemory activity) :
    SparesMemory (Activity.interleave schedule activities) := by
  intro memory clock
  have results := Activity.within_interleave schedule fun activity member => each activity member memory clock
  exact Activity.within_weaken results fun _ _ => trivial

theorem spares_bind {query : Query ω α} {next : α → Query ω β} (first : Spares query)
    (later : ∀ value, Spares (next value)) : Spares (query >>= next) := by
  refine spares_memory_bind first fun outcome => ?_
  cases outcome with
  | ok value => exact later value
  | error failure => exact fun _ _ => trivial

theorem spares_pure (value : α) : Spares (pure value : Query ω α) := fun _ _ => trivial

theorem spares_fail (cause : QueryError) : Spares (fail cause : Query ω α) := fun _ _ => trivial

theorem spares_outcome (outcome : Outcome QueryError α) : Spares (ExceptT.mk (pure outcome) : Query ω α) :=
  fun _ _ => trivial

theorem spares_of_except (given : Except QueryError α) : Spares (ofExcept given : Query ω α) := by
  cases given with
  | ok value => exact spares_pure value
  | error cause => exact spares_fail cause

theorem spares_ite {choice : Prop} [Decidable choice] {first second : Query ω α} (one : Spares first)
    (other : Spares second) : Spares (if choice then first else second) := by
  by_cases chosen : choice
  · rw [if_pos chosen]
    exact one
  · rw [if_neg chosen]
    exact other

theorem spares_lift {activity : Activity (Session ω) α} (spares : SparesMemory activity) :
    Spares (ExceptT.lift activity) :=
  spares_memory_bind spares fun _ _ _ => trivial

theorem recalls_kept {memory : Resolutions} {clock : Nat} {session after : Session ω}
    (held : Recalls memory clock session) (resolutions : after.census.resolutions = session.census.resolutions)
    (time : after.census.clock = session.census.clock) : Recalls memory clock after :=
  ⟨resolutions.trans held.resolutions, time.trans held.clock⟩

theorem spares_step {f : Session ω → α × Session ω}
    (resolutions : ∀ session, (f session).2.census.resolutions = session.census.resolutions)
    (clock : ∀ session, (f session).2.census.clock = session.census.clock) : Spares (Query.step f) :=
  spares_lift fun _ _ session held =>
    ⟨recalls_kept held (resolutions session) (clock session), trivial⟩

theorem spares_look (view : Session ω → α) : Spares (look view) :=
  spares_step (fun _ => rfl) fun _ => rfl

theorem spares_register (f : Registry → α × Registry) : Spares (register f : Query ω α) :=
  spares_step (fun _ => rfl) fun _ => rfl

theorem spares_take_tag : Spares (takeTag : Query ω Tag) := spares_register Registry.takeTag

theorem spares_call (walk : Walk ω α) : Spares (call walk) :=
  fun _ _ _ held => ⟨recalls_kept held rfl rfl, trivial⟩

theorem spares_attempt (walk : Walk ω α) : Spares (attempt walk) :=
  fun _ _ _ held => ⟨recalls_kept held rfl rfl, trivial⟩

theorem on_world_spares (activity : Activity ω α) : SparesMemory (onWorld activity) := by
  induction activity with
  | stop result => exact fun _ _ => trivial
  | act change resume ih =>
      intro memory clock session held
      exact ⟨recalls_kept held rfl rfl, ih session.world memory clock⟩
  | call command => exact nomatch command

theorem served_spares (dialogue : Dialogue ω ScanEvent SinkReply α) :
    SparesMemory (Activity.serve Session.world Session.setWorld hear dialogue) := by
  induction dialogue with
  | stop result => exact fun _ _ => trivial
  | act change resume ih =>
      intro memory clock session held
      exact ⟨recalls_kept held rfl rfl, ih session.world memory clock⟩
  | call event resume ih =>
      intro memory clock session held
      have heard : Recalls memory clock (hear event session).2 := by
        rw [hear_eq]
        exact recalls_kept held rfl rfl
      exact ⟨heard, ih _ memory clock⟩

variable (walker : Walker ω)

theorem spares_count_exact (type : HeapClass) (max : Int) : Spares (countExact walker type max) := by
  refine spares_bind (spares_of_except _) fun bound => ?_
  refine spares_ite (spares_pure 0) ?_
  exact spares_bind spares_take_tag fun tag => spares_call _

theorem spares_count_any (type : HeapClass) (max : Int) : Spares (countAny walker type max) := by
  refine spares_bind (spares_of_except _) fun bound => ?_
  exact spares_bind spares_take_tag fun tag => spares_call _

theorem spares_instances_of (type : HeapClass) (max : Int) : Spares (instancesOf walker type max) := by
  refine spares_bind (spares_of_except _) fun bound => ?_
  refine spares_ite (spares_pure []) ?_
  exact spares_bind spares_take_tag fun tag => spares_call _

theorem spares_instances_of_any (type : HeapClass) (max : Int) :
    Spares (instancesOfAny walker type max) := by
  refine spares_bind (spares_of_except _) fun bound => ?_
  exact spares_bind spares_take_tag fun tag => spares_call _

theorem spares_abandon (tag : Tag) (reason : String) : Spares (abandon tag reason : Query ω ScanReport) := by
  refine spares_bind (spares_register _) fun removed => ?_
  cases removed with
  | none => exact spares_fail _
  | some report => exact spares_pure report

theorem spares_conclude (tag : Tag) (outcome : Outcome WalkerError Unit) :
    Spares (conclude tag outcome : Query ω ScanReport) := by
  cases outcome with
  | ok done =>
      refine spares_bind (spares_register _) fun finished => ?_
      cases finished with
      | ok report => exact spares_pure report
      | error cause =>
          cases cause with
          | notComplete named => exact spares_abandon tag _
          | unknownTag named => exact spares_fail _
  | error failure => cases failure <;> exact spares_abandon tag _

theorem spares_cardinality (type : HeapClass) (max : Int) : Spares (cardinality walker type max) := by
  rw [cardinality_eq]
  refine spares_bind (spares_of_except _) fun bound => ?_
  refine spares_bind (spares_look _) fun now => ?_
  refine spares_bind (spares_register _) fun tag => ?_
  exact spares_bind (spares_lift (served_spares _)) fun outcome => spares_conclude tag outcome

theorem spares_enumerate (type : HeapClass) (max : Int) : Spares (enumerate walker type max) := by
  refine spares_bind (spares_of_except _) fun bound => ?_
  refine spares_bind spares_take_tag fun tag => ?_
  refine spares_ite (spares_pure _) (spares_bind (spares_look _) fun opened => ?_)
  exact spares_bind (spares_outcome opened) fun stream => spares_pure _

theorem for_each_spares (type : HeapClass) (max : Int) : SparesMemory (forEachInstance walker type max) := by
  unfold forEachInstance
  cases normalizeBound max with
  | error cause => exact fun _ _ => trivial
  | ok bound =>
      refine spares_memory_bind (spares_enumerate walker type max) fun outcome => ?_
      cases outcome with
      | error failure => exact fun _ _ => trivial
      | ok feed =>
          have taken : SparesMemory (takeFrom feed bound.toNat) :=
            spares_memory_bind (fun _ _ session held => ⟨held, trivial⟩) fun session => on_world_spares _
          refine spares_memory_bind taken fun items => ?_
          refine spares_memory_bind (on_world_spares _) fun left => ?_
          cases items.2.stream.fault <;> exact fun _ _ => trivial

theorem spares_arrays_over (arrays components : List HeapClass) :
    Spares (arraysOver walker arrays components) := by
  induction components generalizing arrays with
  | nil => exact spares_pure arrays
  | cons component components ih =>
      refine spares_bind (spares_attempt _) fun found => ?_
      cases found with
      | none => exact ih arrays
      | some array => exact ih (insertClass array arrays)

theorem spares_loaded_by (name : String) (types : List HeapClass) (loaders : List HeapObject) :
    Spares (loadedBy walker name types loaders) := by
  induction loaders generalizing types with
  | nil => exact spares_pure types
  | cons loader loaders ih =>
      refine spares_bind (spares_attempt _) fun found => ?_
      cases found with
      | none => exact ih types
      | some type => exact ih (insertClass type types)

theorem spares_resolve_base (base : String) : Spares (resolveBase walker base) := by
  unfold resolveBase
  split
  · refine spares_bind ?_ fun type => spares_pure type.toList
    exact spares_step (fun _ => rfl) fun _ => rfl
  · refine spares_bind (spares_attempt _) fun own => ?_
    refine spares_bind (spares_call _) fun loaderClass => ?_
    refine spares_bind (spares_instances_of_any walker loaderClass 0) fun loaders => ?_
    exact spares_loaded_by walker base own.toList loaders

theorem spares_resolve_dimensions (base : String) (dimensions : Nat) :
    Spares (resolveDimensions walker base dimensions) := by
  induction dimensions with
  | zero => exact spares_resolve_base walker base
  | succ dimensions ih => exact spares_bind ih fun components => spares_arrays_over walker [] components

theorem spares_resolve_fresh (name : TypeName) : Spares (resolveFresh walker name) :=
  spares_resolve_dimensions walker name.base name.dimensions

theorem spares_sum_over {count : HeapClass → Query ω UInt32} (spares : ∀ type, Spares (count type))
    (types : List HeapClass) : Spares (sumOver count types) := by
  induction types with
  | nil => exact spares_pure 0
  | cons type types ih =>
      refine spares_bind (spares type) fun first => ?_
      exact spares_bind ih fun others => spares_pure _

theorem spares_scan_all (types : List HeapClass) : Spares (scanAll walker types) := by
  refine spares_bind (spares_look _) fun turns => ?_
  refine spares_bind (spares_lift (spares_interleave turns fun scan member => ?_)) fun outcomes _ _ => trivial
  obtain ⟨type, _, rfl⟩ := List.mem_map.mp member
  exact spares_cardinality walker type 0

namespace Operation

def text? : Operation → Option String
  | countExact _ _ | countAny _ _ | instancesOf _ _ | instancesOfAny _ _ | cardinality _ _
  | enumerate _ _ | forEach _ _ => none
  | resolve name | countOf name | countOfAny name => some name
  | topInstances name rows _ => if rows = 0 then none else some name

def looked? (operation : Operation) : Option TypeName :=
  operation.text?.bind fun text => (TypeName.parse text).toOption

theorem looked_of_text {operation : Operation} {text : String} {name : TypeName}
    (given : operation.text? = some text) (parsed : TypeName.parse text = .ok name) :
    operation.looked? = some name := by
  rw [looked?, given, Option.bind_some, parsed]
  rfl

def Begins (walker : Walker ω) (operation : Operation) (text : String) : Prop :=
  ∀ session, ∃ rest : List HeapClass → Query ω Unit,
    (operation.query walker).perform session = (Query.resolve walker text >>= rest).perform session ∧
      ∀ types, Spares (rest types)

theorem begins_some {text : String} {next : List HeapClass → Query ω α} (spares : ∀ types, Spares (next types))
    (session : Session ω) :
    ∃ rest : List HeapClass → Query ω Unit,
      ((resolveSome walker text >>= next) >>= fun _ => pure ()).perform session =
          (Query.resolve walker text >>= rest).perform session ∧
        ∀ types, Spares (rest types) := by
  refine ⟨_, (perform_assoc _ _ _ session).trans (perform_assoc _ _ _ session), fun types => ?_⟩
  refine spares_bind ?_ fun found => spares_bind (spares found) fun _ => spares_pure ()
  exact spares_ite (spares_bind (spares_fail _) fun _ => spares_pure types) (spares_pure types)

theorem begins_ranking {text : String} {rows : Nat} (withoutPrimitives : Bool) (positive : rows ≠ 0) :
    (topInstances text rows withoutPrimitives).Begins walker text := by
  intro session
  have looked : (look (·.census.clock) : Query ω Nat).perform session = (.ok session.census.clock, session) := rfl
  simp only [query, Query.topInstances, if_neg positive]
  rw [perform_assoc, perform_ok looked]
  refine begins_some walker (fun types => ?_) session
  refine spares_bind (spares_scan_all walker types) fun reports => ?_
  refine spares_bind (fun _ _ => trivial) fun entries => ?_
  exact spares_bind (spares_look _) fun now => spares_pure _

theorem begins_of_text (operation : Operation) (text : String) (given : operation.text? = some text) :
    operation.Begins walker text := by
  cases operation with
  | countExact | countAny | instancesOf | instancesOfAny | cardinality | enumerate | forEach => cases given
  | resolve name =>
      obtain rfl := Option.some.inj given
      exact fun session => ⟨fun _ => pure (), rfl, fun _ => spares_pure ()⟩
  | countOf name =>
      obtain rfl := Option.some.inj given
      refine begins_some walker fun types => ?_
      exact spares_bind (spares_sum_over (fun type => spares_count_exact walker type 0) types) fun _ => spares_pure _
  | countOfAny name =>
      obtain rfl := Option.some.inj given
      refine begins_some walker fun types => ?_
      exact spares_bind (spares_sum_over (fun type => spares_count_any walker type 0) types) fun _ => spares_pure _
  | topInstances name rows withoutPrimitives =>
      obtain ⟨positive, same⟩ := Option.ite_none_left_eq_some.mp given
      obtain rfl := Option.some.inj same
      exact begins_ranking walker withoutPrimitives positive

theorem spares_value {query : Query ω α} (spares : Spares query) : Spares (do let _ ← query) :=
  spares_bind spares fun _ => spares_pure ()

theorem spares_of_no_text (operation : Operation) (none : operation.text? = none) :
    Spares (operation.query walker) := by
  cases operation with
  | countExact type max => exact spares_value (spares_count_exact walker type max)
  | countAny type max => exact spares_value (spares_count_any walker type max)
  | instancesOf type max => exact spares_value (spares_instances_of walker type max)
  | instancesOfAny type max => exact spares_value (spares_instances_of_any walker type max)
  | cardinality type max => exact spares_value (spares_cardinality walker type max)
  | enumerate type max => exact spares_value (spares_enumerate walker type max)
  | forEach type max =>
      exact spares_memory_bind (for_each_spares walker type max) fun _ _ _ => trivial
  | resolve | countOf | countOfAny => cases none
  | topInstances name rows withoutPrimitives =>
      have empty : rows = 0 := by
        by_contra positive
        rw [text?, if_neg positive] at none
        cases none
      simp only [query, Query.topInstances, if_pos empty]
      exact fun _ _ => trivial

end Operation

end HeapCensus.Query
