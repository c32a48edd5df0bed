import HeapCensus.Proofs.Lookup
import HeapCensus.Proofs.MemoryFrame
import HeapCensus.Proofs.Resolving

set_option autoImplicit false

namespace HeapCensus

namespace Query

variable {ω α : Type}

def Called (amount : Nat) (session : Session (Nat × ω)) : Prop := amount ≤ session.world.1

variable {amount : Nat}

theorem called_call (walk : Walk ω α) :
    Leads (Called amount) (call (Walker.countedWalk walk)) (Called (amount + 1)) :=
  fun _ held => Nat.succ_le_succ held

theorem called_attempt (walk : Walk ω α) :
    Leads (Called amount) (attempt (Walker.countedWalk walk)) (Called (amount + 1)) :=
  fun _ held => Nat.succ_le_succ held

theorem called_fewer {query : Query (Nat × ω) α} {after : Nat}
    (calls : Leads (Called amount) query (Called (after + 1))) : Leads (Called amount) query (Called after) :=
  fun session held => Nat.le_of_succ_le (calls session held)

variable (walker : Walker ω)

theorem called_instances (type : HeapClass) (max : Int) :
    Leads (Called amount) (instancesOfAny walker.counted type max) (Called amount) := by
  refine leads_stable (leads_of_except _) fun bound => ?_
  refine leads_stable (leads_step fun _ held => held) fun tag => ?_
  exact called_fewer (called_call _)

theorem called_loaded_by (name : String) (types : List HeapClass) (loaders : List HeapObject) :
    Leads (Called amount) (loadedBy walker.counted name types loaders) (Called amount) := by
  induction loaders generalizing types with
  | nil => exact leads_pure types
  | cons loader loaders ih =>
      refine leads_stable (called_fewer (called_attempt _)) fun found => ?_
      cases found with
      | none => exact ih types
      | some type => exact ih (insertClass type types)

theorem called_arrays_over (arrays components : List HeapClass) :
    Leads (Called amount) (arraysOver walker.counted arrays components) (Called amount) := by
  induction components generalizing arrays with
  | nil => exact leads_pure arrays
  | cons component components ih =>
      refine leads_stable (called_fewer (called_attempt _)) fun found => ?_
      cases found with
      | none => exact ih arrays
      | some array => exact ih (insertClass array arrays)

theorem called_resolve_base (base : String) :
    Leads (Called amount) (resolveBase walker.counted base) (Called (amount + 1)) := by
  unfold resolveBase
  split
  · refine leads_bind (Called (amount + 1)) ?_ (fun type => leads_pure type.toList) fun _ held => held
    exact leads_step fun _ held => Nat.succ_le_succ held
  · refine leads_bind _ (called_attempt _) (fun own => ?_) fun _ held => held
    refine leads_stable (called_fewer (called_call _)) fun loaderClass => ?_
    refine leads_stable (called_instances walker loaderClass 0) fun loaders => ?_
    exact called_loaded_by walker base own.toList loaders

theorem called_resolve_fresh (name : TypeName) :
    Leads (Called amount) (resolveFresh walker.counted name) (Called (amount + 1)) := by
  unfold resolveFresh
  generalize name.dimensions = dimensions
  induction dimensions with
  | zero => exact called_resolve_base walker name.base
  | succ dimensions ih =>
      exact leads_bind _ ih (fun components => called_arrays_over walker [] components) fun _ held => held

def Fresh (walker : Walker ω) (name : TypeName) (types : List HeapClass) (before : Session (Nat × ω)) : Prop :=
  before.remembered? name = none ∧
    ∃ found, (resolveFresh walker.counted name).perform before.missed = (.ok types, found)

inductive Recollects (walker : Walker ω) (operation : Operation) (before : Session (Nat × ω)) :
    Resolutions → Prop
  | idle : operation.looked? = none → Recollects walker operation before before.census.resolutions
  | hit (name : TypeName) (types : List HeapClass) :
      operation.looked? = some name → before.remembered? name = some types →
        Recollects walker operation before before.hit.census.resolutions
  | found (name : TypeName) (types : List HeapClass) :
      operation.looked? = some name → Fresh walker name types before →
        Recollects walker operation before
          (before.missed.census.resolutions.remember name types before.census.clock)
  | failed (name : TypeName) :
      operation.looked? = some name → before.remembered? name = none →
        Recollects walker operation before before.missed.census.resolutions

variable {walker} {operation : Operation} {before after : Session (Nat × ω)}

theorem resolve_recollects (walker : Walker ω) {text : String} (given : operation.text? = some text)
    (before : Session (Nat × ω)) :
    Recollects walker operation before
        ((resolve walker.counted text).perform before).2.census.resolutions ∧
      ((resolve walker.counted text).perform before).2.census.clock = before.census.clock := by
  have looks := resolve_looks walker.counted text before
  generalize (resolve walker.counted text).perform before = performed at looks
  obtain ⟨outcome, after⟩ := performed
  cases looks with
  | unparsed cause wrong =>
      have nothing : operation.looked? = none := by
        rw [Operation.looked?, given, Option.bind_some, wrong]
        rfl
      exact ⟨.idle nothing, rfl⟩
  | remembered name types parsed cached =>
      exact ⟨.hit name types (Operation.looked_of_text given parsed) cached, rfl⟩
  | found name types found parsed uncached fresh =>
      have spared := spares_perform (spares_resolve_fresh walker.counted name) before.missed
      rw [fresh] at spared
      refine ⟨?_, spared.clock⟩
      change Recollects walker operation before (found.census.resolutions.remember name types found.census.clock)
      rw [spared.resolutions, spared.clock]
      exact .found name types (Operation.looked_of_text given parsed) ⟨uncached, found, fresh⟩
  | failed name failure found parsed uncached fresh =>
      have spared := spares_perform (spares_resolve_fresh walker.counted name) before.missed
      rw [fresh] at spared
      rw [spared.resolutions]
      exact ⟨.failed name (Operation.looked_of_text given parsed) uncached, spared.clock⟩

theorem begins_recalls {walker : Walker ω} {text : String} (begins : operation.Begins walker text)
    (session : Session ω) :
    let resolved := ((resolve walker text).perform session).2
    Recalls resolved.census.resolutions resolved.census.clock ((operation.query walker).perform session).2 := by
  obtain ⟨rest, performed, spares⟩ := begins session
  rw [performed, perform_bind]
  generalize (resolve walker text).perform session = resolved
  obtain ⟨outcome, between⟩ := resolved
  cases outcome with
  | ok types => exact spares_perform (spares types) between
  | error failure => exact ⟨rfl, rfl⟩

theorem operation_recollects (walker : Walker ω) (operation : Operation) (before : Session (Nat × ω)) :
    let after := ((operation.query walker.counted).perform before).2
    Recollects walker operation before after.census.resolutions ∧
      after.census.clock = before.census.clock := by
  intro after
  cases given : operation.text? with
  | none =>
      have nothing : operation.looked? = none := by
        rw [Operation.looked?, given]
        rfl
      have spared := spares_perform (Operation.spares_of_no_text walker.counted operation given) before
      rw [spared.resolutions]
      exact ⟨.idle nothing, spared.clock⟩
  | some text =>
      have recalled := begins_recalls (Operation.begins_of_text walker.counted operation text given) before
      obtain ⟨recollects, clock⟩ := resolve_recollects walker given before
      rw [recalled.resolutions]
      exact ⟨recollects, recalled.clock.trans clock⟩

inductive Occurrence (ω : Type) where
  | asked (operation : Operation) (before : Session ω)
  | forgot
  | passed

def Occurrence.looked? : Occurrence ω → Option TypeName
  | asked operation _ => operation.looked?
  | forgot | passed => none

def lookups (past : List (Occurrence ω)) : Nat := (past.filterMap Occurrence.looked?).length

theorem lookups_idle {operation : Operation} (nothing : operation.looked? = none) (before : Session ω)
    (past : List (Occurrence ω)) : lookups (.asked operation before :: past) = lookups past := by
  have silent : (Occurrence.asked operation before).looked? = none := nothing
  rw [lookups, List.filterMap_cons_none silent]
  rfl

theorem lookups_asked {operation : Operation} {name : TypeName} (asked : operation.looked? = some name)
    (before : Session ω) (past : List (Occurrence ω)) :
    lookups (.asked operation before :: past) = lookups past + 1 := by
  have looked : (Occurrence.asked operation before).looked? = some name := asked
  rw [lookups, List.filterMap_cons_some looked]
  rfl

/-- Between two operations the heap, the walker and the rest of the census may become anything, and
resolutions may leave the memory. -/
structure Passes (session after : Session ω) : Prop where
  entries : List.Sublist after.census.resolutions.entries session.census.resolutions.entries
  lifetime : after.census.resolutions.lifetime = session.census.resolutions.lifetime
  hits : after.census.resolutions.hits = session.census.resolutions.hits
  misses : after.census.resolutions.misses = session.census.resolutions.misses
  clock : session.census.clock ≤ after.census.clock

/-- A run of a census whose walker counts its calls, newest first. -/
inductive Run (walker : Walker ω) : List (Occurrence (Nat × ω)) → Session (Nat × ω) → Prop
  | start (session : Session (Nat × ω)) (lifetime : Nat) :
      session.census.resolutions = Resolutions.new lifetime → Run walker [] session
  | asked (operation : Operation) (past : List (Occurrence (Nat × ω))) (session : Session (Nat × ω)) :
      Run walker past session →
        Run walker (.asked operation session :: past) ((operation.query walker.counted).perform session).2
  | forgot (past : List (Occurrence (Nat × ω))) (session : Session (Nat × ω)) :
      Run walker past session → Run walker (.forgot :: past) session.forgetResolutions
  | passed (past : List (Occurrence (Nat × ω))) (session after : Session (Nat × ω)) :
      Run walker past session → Passes session after → Run walker (.passed :: past) after

variable {past : List (Occurrence (Nat × ω))} {session : Session (Nat × ω)}

/-- The types were found for the name after the memory was last emptied. -/
def Sourced (walker : Walker ω) (past : List (Occurrence (Nat × ω))) (name : TypeName)
    (types : List HeapClass) : Prop :=
  ∃ recent operation before older, past = recent ++ .asked operation before :: older ∧ .forgot ∉ recent ∧
    operation.looked? = some name ∧ types ≠ [] ∧ Fresh walker name types before

def Unfound (walker : Walker ω) (past : List (Occurrence (Nat × ω))) (name : TypeName) : Prop :=
  ∃ recent operation before older, past = recent ++ .asked operation before :: older ∧
    (∀ occurrence ∈ recent, occurrence.looked? ≠ some name) ∧
      ∃ text, operation.text? = some text ∧ TypeName.parse text = .ok name ∧
        ∀ types after, (resolve walker.counted text).perform before = (.ok types, after) → types = []

theorem sourced_later {name : TypeName} {types : List HeapClass} (sourced : Sourced walker past name types)
    {occurrence : Occurrence (Nat × ω)} (kept : occurrence ≠ .forgot) :
    Sourced walker (occurrence :: past) name types := by
  obtain ⟨recent, operation, before, older, rfl, silent, found⟩ := sourced
  refine ⟨occurrence :: recent, operation, before, older, rfl, ?_, found⟩
  simpa [silent] using kept.symm

theorem unfound_later {name : TypeName} {occurrence : Occurrence (Nat × ω)}
    (unfound : Unfound walker (occurrence :: past) name) :
    (occurrence.looked? ≠ some name ∧ Unfound walker past name) ∨
      ∃ operation before text, occurrence = .asked operation before ∧ operation.text? = some text ∧
        TypeName.parse text = .ok name ∧
        ∀ types after, (resolve walker.counted text).perform before = (.ok types, after) → types = [] := by
  obtain ⟨recent, operation, before, older, same, silent, text, given, parsed, nothing⟩ := unfound
  cases recent with
  | nil =>
      obtain ⟨rfl, rfl⟩ := List.cons.inj same
      exact .inr ⟨operation, before, text, rfl, given, parsed, nothing⟩
  | cons newest recent =>
      obtain ⟨rfl, rfl⟩ := List.cons.inj same
      obtain ⟨first, others⟩ := List.forall_mem_cons.mp silent
      exact .inl ⟨first, recent, operation, before, older, rfl, others, text, given, parsed, nothing⟩

structure Memory (walker : Walker ω) (past : List (Occurrence (Nat × ω))) (session : Session (Nat × ω)) :
    Prop where
  counted : session.census.resolutions.hits + session.census.resolutions.misses = lookups past
  sourced : ∀ entry ∈ session.census.resolutions.entries, Sourced walker past entry.name entry.types
  unfound : ∀ name, Unfound walker past name → session.remembered? name = none

theorem memory_passed (memory : Memory walker past session) (passes : Passes session after) :
    Memory walker (.passed :: past) after := by
  refine ⟨?_, fun entry member => ?_, fun name unfound => ?_⟩
  · rw [passes.hits, passes.misses, memory.counted]
    rfl
  · exact sourced_later (memory.sourced entry (passes.entries.subset member)) nofun
  · rcases unfound_later unfound with ⟨_, earlier⟩ | ⟨_, _, _, same, _⟩
    · have absent := Resolutions.find_none_iff.mp (memory.unfound name earlier)
      refine Resolutions.find_none_iff.mpr fun entry member named => ?_
      have expired := absent entry (passes.entries.subset member) named
      rw [Resolutions.isCurrent, decide_eq_false_iff_not] at expired ⊢
      rw [Resolutions.expiry, passes.lifetime]
      exact fun current => expired (Nat.lt_of_le_of_lt passes.clock current)
    · cases same

theorem memory_forgot (memory : Memory walker past session) :
    Memory walker (.forgot :: past) session.forgetResolutions :=
  ⟨memory.counted, nofun, fun _ _ => rfl⟩

theorem recollects_absent {name : TypeName} (recollects : Recollects walker operation before after.census.resolutions)
    (clock : after.census.clock = before.census.clock) (other : operation.looked? ≠ some name)
    (absent : before.remembered? name = none) : after.remembered? name = none := by
  rw [Session.remembered?, clock]
  generalize after.census.resolutions = memory at recollects
  cases recollects with
  | idle | hit | failed => exact absent
  | found looked types asked fresh =>
      refine Resolutions.find_none_iff.mpr fun entry member named => ?_
      rw [Resolutions.current_remember]
      rcases Resolutions.mem_remember member with kept | ⟨_, rfl⟩
      · exact Resolutions.find_none_iff.mp absent entry kept named
      · exact absurd (named ▸ asked) other

theorem recollects_sourced (memory : Memory walker past before)
    (recollects : Recollects walker operation before after.census.resolutions) :
    ∀ entry ∈ after.census.resolutions.entries,
      Sourced walker (.asked operation before :: past) entry.name entry.types := by
  intro entry member
  have older : ∀ kept ∈ before.census.resolutions.entries,
      Sourced walker (.asked operation before :: past) kept.name kept.types :=
    fun kept present => sourced_later (memory.sourced kept present) nofun
  generalize after.census.resolutions = resolutions at recollects member
  cases recollects with
  | idle | hit | failed => exact older entry member
  | found looked types asked fresh =>
      rcases Resolutions.mem_remember member with kept | ⟨nonempty, rfl⟩
      · exact older entry kept
      · exact ⟨[], operation, before, past, rfl, List.not_mem_nil, asked, nonempty, fresh⟩

theorem recollects_counted (memory : Memory walker past before)
    (recollects : Recollects walker operation before after.census.resolutions) :
    after.census.resolutions.hits + after.census.resolutions.misses =
      lookups (.asked operation before :: past) := by
  have counted := memory.counted
  generalize after.census.resolutions = resolutions at recollects
  cases recollects with
  | idle nothing =>
      rw [lookups_idle nothing]
      exact counted
  | hit name types asked =>
      rw [lookups_asked asked, ← counted]
      exact Nat.add_right_comm _ 1 _
  | found name types asked =>
      obtain ⟨_, hits, misses⟩ :=
        Resolutions.remember_keeps before.missed.census.resolutions name types before.census.clock
      rw [lookups_asked asked, ← counted, hits, misses]
      rfl
  | failed name asked =>
      rw [lookups_asked asked, ← counted]
      rfl

theorem remembered_sourced {name : TypeName} {types : List HeapClass} (memory : Memory walker past session)
    (remembered : session.remembered? name = some types) : Sourced walker past name types := by
  obtain ⟨entry, member, rfl, _, rfl⟩ := Resolutions.entry_of_find remembered
  exact memory.sourced entry member

theorem sourced_nonempty {name : TypeName} {types : List HeapClass} (sourced : Sourced walker past name types) :
    types ≠ [] := by
  obtain ⟨_, _, _, _, _, _, _, nonempty, _⟩ := sourced
  exact nonempty

theorem recollects_unfound {text : String} {name : TypeName} (memory : Memory walker past before)
    (given : operation.text? = some text) (parsed : TypeName.parse text = .ok name)
    (nothing : ∀ types last, (resolve walker.counted text).perform before = (.ok types, last) → types = [])
    (recollects : Recollects walker operation before after.census.resolutions)
    (clock : after.census.clock = before.census.clock) : after.remembered? name = none := by
  have looked := Operation.looked_of_text given parsed
  rw [Session.remembered?, clock]
  generalize after.census.resolutions = resolutions at recollects
  cases recollects with
  | idle none => cases looked.symm.trans none
  | hit other types asked remembered =>
      obtain rfl := Option.some.inj (looked.symm.trans asked)
      have empty := nothing types _ (resolve_remembered parsed remembered)
      exact absurd empty (sourced_nonempty (remembered_sourced memory remembered))
  | found other types asked fresh =>
      obtain rfl := Option.some.inj (looked.symm.trans asked)
      obtain ⟨absent, found, performed⟩ := fresh
      obtain rfl := nothing types _ (resolve_found parsed absent performed)
      exact absent
  | failed other asked absent =>
      obtain rfl := Option.some.inj (looked.symm.trans asked)
      exact absent

theorem memory_asked (memory : Memory walker past before) (operation : Operation) :
    Memory walker (.asked operation before :: past) ((operation.query walker.counted).perform before).2 := by
  obtain ⟨recollects, clock⟩ := operation_recollects walker operation before
  refine ⟨recollects_counted memory recollects, recollects_sourced memory recollects, fun name unfound => ?_⟩
  rcases unfound_later unfound with ⟨other, earlier⟩ | ⟨asked, session, text, same, given, parsed, nothing⟩
  · exact recollects_absent recollects clock other (memory.unfound name earlier)
  · obtain ⟨rfl, rfl⟩ := Occurrence.asked.inj same
    exact recollects_unfound memory given parsed nothing recollects clock

theorem run_memory (run : Run walker past session) : Memory walker past session := by
  induction run with
  | start session lifetime empty =>
      refine ⟨?_, ?_, ?_⟩
      · rw [empty]
        rfl
      · rw [empty]
        exact nofun
      · rintro name ⟨recent, operation, before, older, same, _⟩
        exact absurd same (by simp)
  | asked operation past session _ ih => exact memory_asked ih operation
  | forgot past session _ ih => exact memory_forgot ih
  | passed past session after _ passes ih => exact memory_passed ih passes

theorem called_uncached (walker : Walker ω) {text : String} {name : TypeName} (parsed : TypeName.parse text = .ok name)
    (uncached : session.remembered? name = none) :
    session.world.1 < ((resolve walker.counted text).perform session).2.world.1 := by
  have called := called_resolve_fresh walker name session.missed (Nat.le_refl session.world.1)
  cases fresh : (resolveFresh walker.counted name).perform session.missed with
  | mk outcome found =>
      rw [fresh] at called
      cases outcome with
      | ok types =>
          rw [resolve_found parsed uncached fresh]
          exact called
      | error failure =>
          rw [resolve_failed parsed uncached fresh]
          exact called

/-- What a memory is good for at any time of a run, asked by a resolution or inside another operation. An
answer from the memory leaves all but its count of hits as it was. -/
structure Remembers (walker : Walker ω) (past : List (Occurrence (Nat × ω))) (session : Session (Nat × ω)) :
    Prop where
  begins : ∀ (operation : Operation) (text : String), operation.text? = some text → operation.Begins walker.counted text
  counted : session.census.resolutions.hits + session.census.resolutions.misses = lookups past
  sources : ∀ entry ∈ session.census.resolutions.entries, Sourced walker past entry.name entry.types
  answers : ∀ text name types after, TypeName.parse text = .ok name →
    (resolve walker.counted text).perform session = (.ok types, after) →
      (Fresh walker name types session ∧ session.world.1 < after.world.1) ∨
        (Sourced walker past name types ∧ after = session.hit)
  again : ∀ text name, TypeName.parse text = .ok name → Unfound walker past name →
    session.remembered? name = none ∧
      session.world.1 < ((resolve walker.counted text).perform session).2.world.1

theorem run_remembers (walker : Walker ω) (past : List (Occurrence (Nat × ω))) (session : Session (Nat × ω))
    (run : Run walker past session) : Remembers walker past session := by
  have memory := run_memory run
  refine ⟨Operation.begins_of_text walker.counted, memory.counted, memory.sourced, ?_, ?_⟩
  · intro text name types after parsed performed
    cases cached : session.remembered? name with
    | none =>
        have called := called_uncached walker parsed cached
        rw [performed] at called
        have looks := resolve_looks walker.counted text session
        rw [performed] at looks
        cases looks with
        | remembered other types again remembered =>
            obtain rfl := Except.ok.inj (again.symm.trans parsed)
            cases cached.symm.trans remembered
        | found other types found again uncached fresh =>
            obtain rfl := Except.ok.inj (again.symm.trans parsed)
            exact .inl ⟨⟨uncached, found, fresh⟩, called⟩
    | some held =>
        rw [resolve_remembered parsed cached] at performed
        obtain ⟨outcome, rfl⟩ := Prod.mk.inj performed
        obtain rfl := Except.ok.inj outcome
        exact .inr ⟨remembered_sourced memory cached, rfl⟩
  · intro text name parsed unfound
    have absent := memory.unfound name unfound
    exact ⟨absent, called_uncached walker parsed absent⟩

def curious : Session (Nat × SyntheticHeap) where
  census := Census.idle (Latency.empty 1 Nat.one_pos)
  world := (0, (SyntheticHeap.new.defineType "Base" .concrete [] none).2)

def curiousPast : List (Occurrence (Nat × SyntheticHeap)) := [.asked (.resolve "Base") curious]

def informed : Session (Nat × SyntheticHeap) :=
  (((Operation.resolve "Base").query SyntheticHeap.walker.counted).perform curious).2

set_option maxRecDepth 20000 in
theorem informed_remembers :
    Run SyntheticHeap.walker curiousPast informed ∧
      Remembers SyntheticHeap.walker curiousPast informed ∧
      informed.remembered? ⟨"Base", 0⟩ = some [.plain ⟨12⟩ "Base" .concrete none] ∧
      informed.world.1 = 3 ∧ lookups curiousPast = 1 := by
  have run : Run SyntheticHeap.walker curiousPast informed :=
    .asked (.resolve "Base") [] curious (.start curious CensusSettings.defaultResolutionSeconds rfl)
  exact ⟨run, run_remembers _ _ _ run, by cbv, by cbv, by cbv⟩

end Query

end HeapCensus
