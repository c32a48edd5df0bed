import HeapCensus.Proofs.Denotation
import HeapCensus.Proofs.Lookup

set_option autoImplicit false

namespace HeapCensus

namespace Resolutions

/-- From some time on, what is remembered for a name is nothing or these types. -/
def Agrees (resolutions : Resolutions) (name : TypeName) (types : List HeapClass) (since : Nat) : Prop :=
  ∀ now found, since ≤ now → resolutions.find? name now = some found → found = types

theorem agrees_entries {resolutions : Resolutions} {name : TypeName} {types : List HeapClass} {since : Nat}
    (entries : ∀ entry ∈ resolutions.entries, entry.name = name →
      entry.types = types ∨ resolutions.isCurrent since entry = false) :
    resolutions.Agrees name types since := by
  intro now found later remembered
  obtain ⟨entry, member, named, current, rfl⟩ := entry_of_find remembered
  rcases entries entry member named with same | expired
  · exact same
  · exact absurd (Nat.lt_of_le_of_lt later (of_decide_eq_true current)) (of_decide_eq_false expired)

theorem agrees_remember {resolutions : Resolutions} {name : TypeName} {now : Nat}
    (absent : resolutions.find? name now = none) (types : List HeapClass) :
    (resolutions.remember name types now).Agrees name types now := by
  refine agrees_entries fun entry member named => ?_
  rcases mem_remember member with before | ⟨_, rfl⟩
  · rw [current_remember]
    exact .inr (find_none_iff.mp absent entry before named)
  · exact .inl rfl

end Resolutions

namespace Query

open SyntheticHeap (Tabled Built Grows Undisturbed ArraysOver Homegrown operated)

theorem attempt_ok {ω α : Type} {walk : Walk ω α} {session : Session ω} {value : α} {world : ω}
    (called : walk.call session.world = (.ok value, world)) :
    (attempt walk).perform session = (.ok (some value), session.setWorld world) := by
  simp only [perform, attempt, ExceptT.run, ExceptT.mk, Activity.step, Activity.run, called]

theorem attempt_error {ω α : Type} {walk : Walk ω α} {session : Session ω} {cause : WalkerError} {world : ω}
    (called : walk.call session.world = (.error (.error cause), world)) :
    (attempt walk).perform session = (.ok none, session.setWorld world) := by
  simp only [perform, attempt, ExceptT.run, ExceptT.mk, Activity.step, Activity.run, called]

theorem attempt_load (loader : Option HeapObject) (name : String) (session : Session SyntheticHeap) :
    (attempt (SyntheticHeap.walker.loadClass loader name)).perform session =
      (.ok (session.world.load loader name).toOption, session.setWorld session.world.served) := by
  have called : (SyntheticHeap.walker.loadClass loader name).call session.world =
      (Outcome.ofExcept (session.world.load loader name), session.world.served) := rfl
  cases loaded : session.world.load loader name with
  | ok type =>
      rw [loaded] at called
      exact attempt_ok called
  | error cause =>
      rw [loaded] at called
      exact attempt_error called

theorem loaded_by_performed (name : String) (types : List HeapClass) (loaders : List HeapObject)
    (session : Session SyntheticHeap) :
    (loadedBy SyntheticHeap.walker name types loaders).perform session =
      (.ok (insertAll types (loaders.filterMap fun loader =>
          (session.world.load (some loader) name).toOption)),
        session.setWorld { session.world with calls := session.world.calls + loaders.length }) := by
  induction loaders generalizing types session with
  | nil => rfl
  | cons loader loaders ih =>
      have same : ∀ other, session.world.served.load (some other) name = session.world.load (some other) name :=
        fun _ => rfl
      rw [loadedBy, perform_ok (attempt_load (some loader) name session), List.filterMap_cons]
      have amount : session.world.calls + (loader :: loaders).length =
          session.world.served.calls + loaders.length := by
        simp only [List.length_cons, SyntheticHeap.served]
        omega
      rw [amount]
      cases (session.world.load (some loader) name).toOption with
      | none => exact ih types (session.setWorld session.world.served)
      | some type => exact ih (insertClass type types) (session.setWorld session.world.served)

theorem arrays_over_performed (arrays components : List HeapClass) (session : Session SyntheticHeap) :
    (arraysOver SyntheticHeap.walker arrays components).perform session =
      (.ok (insertAll arrays (SyntheticHeap.arraysOf session.world components).1),
        session.setWorld (SyntheticHeap.arraysOf session.world components).2) := by
  induction components generalizing arrays session with
  | nil => rfl
  | cons component components ih =>
      have made : (attempt (SyntheticHeap.walker.arrayClass component)).perform session =
          (.ok (some (session.world.arrayOf component).1),
            session.setWorld (session.world.arrayOf component).2) := rfl
      rw [arraysOver, perform_ok made]
      exact ih _ _

structure Quiet (session after : Session SyntheticHeap) : Prop where
  world : Undisturbed session.world after.world
  resolutions : after.census.resolutions = session.census.resolutions
  clock : after.census.clock = session.census.clock

variable {session : Session SyntheticHeap}

theorem resolve_loaded_perform (session : Session SyntheticHeap) {base : String}
    (other : isPrimitiveName base = false) :
    let loaders := session.world.any SyntheticHeap.classLoader unbounded
    (resolveBase SyntheticHeap.walker base).perform session =
      (.ok (insertAll (session.world.definition? none base).toList
          (loaders.filterMap fun loader => (session.world.load (some loader) base).toOption)),
        (session.setRegistry session.census.registry.takeTag.2).setWorld
          { session.world with calls := session.world.calls + 2 + loaders.length }) := by
  intro loaders
  let asked := session.setWorld session.world.served
  have bootstrap := attempt_load none base session
  rw [SyntheticHeap.load_bootstrap] at bootstrap
  have loaderClass : (call SyntheticHeap.walker.classLoaderClass).perform asked =
      (.ok SyntheticHeap.classLoader, asked) := rfl
  have searched : (instancesOfAny SyntheticHeap.walker SyntheticHeap.classLoader 0).perform asked =
      (.ok loaders, (asked.setRegistry asked.census.registry.takeTag.2).setWorld asked.world.served) := rfl
  rw [resolveBase, other, if_neg Bool.false_ne_true, perform_ok bootstrap, perform_ok loaderClass,
    perform_ok searched, loaded_by_performed]
  rfl

theorem resolve_primitive_performed (session : Session SyntheticHeap) {base : String}
    (primitive : isPrimitiveName base = true) :
    ∃ types after, (resolveBase SyntheticHeap.walker base).perform session = (.ok types, after) ∧
      Quiet session after ∧ ArraysOver after.world (session.world.Denotes base) 0 types := by
  refine ⟨(SyntheticHeap.primitive? base).toList, session, ?_,
    ⟨SyntheticHeap.undisturbed_refl session.world, rfl, rfl⟩, SyntheticHeap.arrays_over_primitive _ primitive⟩
  rw [resolveBase, primitive]
  rfl

theorem resolve_loaded_performed (tabled : Tabled session.world)
    (few : session.world.objects.length < UInt32.size) {base : String}
    (other : isPrimitiveName base = false) :
    ∃ types after, (resolveBase SyntheticHeap.walker base).perform session = (.ok types, after) ∧
      Quiet session after ∧ ArraysOver after.world (session.world.Denotes base) 0 types := by
  have performed := resolve_loaded_perform session other
  rw [SyntheticHeap.any_unbounded _ SyntheticHeap.classLoader few] at performed
  refine ⟨_, _, performed, ⟨SyntheticHeap.undisturbed_calls session.world _, rfl, rfl⟩, ?_⟩
  have found := SyntheticHeap.arrays_over_found tabled other
  exact SyntheticHeap.arrays_over_calls found _

theorem resolve_base_performed (tabled : Tabled session.world)
    (few : session.world.objects.length < UInt32.size) (base : String) :
    ∃ types after, (resolveBase SyntheticHeap.walker base).perform session = (.ok types, after) ∧
      Quiet session after ∧ ArraysOver after.world (session.world.Denotes base) 0 types := by
  cases primitive : isPrimitiveName base with
  | true => exact resolve_primitive_performed session primitive
  | false => exact resolve_loaded_performed tabled few primitive

theorem resolve_dimensions_performed (tabled : Tabled session.world)
    (few : session.world.objects.length < UInt32.size) (base : String) (dimensions : Nat) :
    ∃ types after, (resolveDimensions SyntheticHeap.walker base dimensions).perform session =
        (.ok types, after) ∧ Quiet session after ∧
      ArraysOver after.world (session.world.Denotes base) dimensions types := by
  induction dimensions with
  | zero => exact resolve_base_performed tabled few base
  | succ dimensions ih =>
      obtain ⟨components, between, performed, quiet, inner⟩ := ih
      have grown := SyntheticHeap.tabled_grows tabled quiet.world.grows
      have own : components ⊆ between.world.classes := by
        intro component member
        obtain ⟨root, denoted, tower⟩ := inner.right component member
        exact SyntheticHeap.over_known tower (inner.known root denoted)
      obtain ⟨undisturbed, arrayed⟩ := SyntheticHeap.arrays_of_made grown own
      refine ⟨_, _, (perform_ok performed).trans (arrays_over_performed [] components between), ?_, ?_⟩
      · exact ⟨SyntheticHeap.undisturbed_trans quiet.world undisturbed, quiet.resolutions, quiet.clock⟩
      · have ended := SyntheticHeap.tabled_grows grown undisturbed.grows
        exact SyntheticHeap.arrays_over_made ended inner undisturbed.grows arrayed

variable {text : String} {name : TypeName}

theorem resolve_fresh_performed (tabled : Tabled session.world)
    (few : session.world.objects.length < UInt32.size) (parsed : TypeName.parse text = .ok name)
    (uncached : session.census.resolutions.find? name session.census.clock = none) :
    ∃ types after, (resolve SyntheticHeap.walker text).perform session = (.ok types, after) ∧
      Undisturbed session.world after.world ∧
      ArraysOver after.world (session.world.Denotes name.base) name.dimensions types ∧
      after.census.resolutions.Agrees name types after.census.clock := by
  have table : Tabled session.missed.world := tabled
  obtain ⟨types, found, performed, quiet, arrays⟩ :=
    resolve_dimensions_performed table few name.base name.dimensions
  refine ⟨types, found.remembering name types, ?_, quiet.world, arrays, ?_⟩
  · exact resolve_found parsed uncached performed
  · have absent : found.census.resolutions.find? name found.census.clock = none := by
      rw [quiet.resolutions, quiet.clock]
      exact uncached
    exact Resolutions.agrees_remember absent types

/-- Asked again in a heap that has come of this one, with the same definitions and live loaders. -/
structure Later (name : TypeName) (types : List HeapClass) (session after later : Session SyntheticHeap) :
    Prop where
  grows : Grows after.world later.world
  definitions : later.world.definitions = session.world.definitions
  loaders : ∀ id, later.world.LiveLoader id ↔ session.world.LiveLoader id
  few : later.world.objects.length < UInt32.size
  remembered : later.census.resolutions.Agrees name types later.census.clock

theorem resolve_again {types : List HeapClass} {after later : Session SyntheticHeap}
    (tabled : Tabled after.world) (parsed : TypeName.parse text = .ok name)
    (arrays : ArraysOver after.world (session.world.Denotes name.base) name.dimensions types)
    (again : Later name types session after later) :
    ∃ found last, (resolve SyntheticHeap.walker text).perform later = (.ok found, last) ∧
      found.Perm types := by
  cases cached : later.census.resolutions.find? name later.census.clock with
  | some found =>
      obtain rfl := again.remembered _ found (Nat.le_refl _) cached
      exact ⟨found, later.hit, resolve_remembered parsed cached, List.Perm.refl found⟩
  | none =>
      have grown := SyntheticHeap.tabled_grows tabled again.grows
      obtain ⟨found, last, performed, undisturbed, others, _⟩ :=
        resolve_fresh_performed grown again.few parsed cached
      rw [SyntheticHeap.denotes_alike again.definitions again.loaders] at others
      have ended := SyntheticHeap.tabled_grows grown undisturbed.grows
      exact ⟨found, last, performed,
        SyntheticHeap.arrays_over_again ended (SyntheticHeap.grows_trans again.grows undisturbed.grows) arrays others⟩

/-- Where every array stands over a class of the heap, a class is told by the type at its heart and by its
dimensions, and so is the name that it is shown under. -/
structure Told (name : TypeName) (session after : Session SyntheticHeap) (types : List HeapClass) : Prop where
  exactly : ∀ type, type ∈ types ↔ type ∈ after.world.classes ∧
    session.world.Denotes name.base type.elementType ∧ type.dimensions = name.dimensions
  each : ∀ root, session.world.Denotes name.base root → ∃! type, type ∈ types ∧ type.elementType = root
  canonical : ∀ type ∈ types, type.canonicalName = name.render

/-- What a resolution finds: the arrays over the types that the base denotes, level by level. -/
structure Resolves (text : String) (name : TypeName) (session after : Session SyntheticHeap)
    (types : List HeapClass) : Prop where
  exactly : ∀ type, type ∈ types ↔
    ∃ root, session.world.Denotes name.base root ∧ after.world.Over root name.dimensions type
  each : ∀ root, session.world.Denotes name.base root →
    ∃! type, type ∈ types ∧ after.world.Over root name.dimensions type
  distinct : (types.map HeapClass.id).Nodup
  amount : types.length = {root | session.world.Denotes name.base root}.ncard
  told : Homegrown session.world → Told name session after types
  undisturbed : Undisturbed session.world after.world
  remembered : after.census.resolutions.Agrees name types after.census.clock
  again : ∀ later, Later name types session after later →
    ∃ found last, (resolve SyntheticHeap.walker text).perform later = (.ok found, last) ∧ found.Perm types

theorem resolves_told {types : List HeapClass} {after : Session SyntheticHeap} (tabled : Tabled after.world)
    (undisturbed : Undisturbed session.world after.world)
    (arrays : ArraysOver after.world (session.world.Denotes name.base) name.dimensions types)
    (homegrown : Homegrown session.world) : Told name session after types := by
  have grown := undisturbed.homegrown homegrown
  have levels : ∀ root type, session.world.Denotes name.base root → after.world.Over root name.dimensions type →
      type.elementType = root ∧ type.dimensions = name.dimensions := by
    intro root type denoted tower
    exact SyntheticHeap.levels_of_over tabled grown (arrays.known root denoted)
      (SyntheticHeap.denotes_plain homegrown denoted) tower
  constructor
  · intro type
    rw [SyntheticHeap.arrays_over_mem_iff tabled arrays]
    constructor
    · rintro ⟨root, denoted, tower⟩
      obtain ⟨element, dimensions⟩ := levels root type denoted tower
      exact ⟨SyntheticHeap.over_known tower (arrays.known root denoted), element ▸ denoted, dimensions⟩
    · rintro ⟨known, denoted, dimensions⟩
      exact ⟨type.elementType, denoted, dimensions ▸ SyntheticHeap.over_of_levels grown known⟩
  · intro root denoted
    obtain ⟨type, member, tower⟩ := arrays.whole root denoted
    refine ⟨type, ⟨member, (levels root type denoted tower).1⟩, fun other found => ?_⟩
    obtain ⟨heart, own, again⟩ := arrays.right other found.1
    obtain rfl := (levels heart other own again).1.symm.trans found.2
    exact SyntheticHeap.over_unique tabled again tower
  · intro type member
    obtain ⟨root, denoted, tower⟩ := arrays.right type member
    obtain ⟨element, dimensions⟩ := levels root type denoted tower
    rw [HeapClass.canonicalName, element, dimensions, (SyntheticHeap.denotes_known denoted).2, TypeName.render]

/-- Of three loaders one has a type of its own, one leaves the name to the bootstrap loader, and one is gone
together with its type. -/
def crossedOperations : List SyntheticHeap.Operation :=
  let loader (number : Nat) : HeapObject := ⟨⟨number⟩, SyntheticHeap.loaderType⟩
  [.defineClass "Base" none,
   .newLoader,
   .define ⟨"Base", .plain .concrete, [.plain ⟨12⟩ "Base" .concrete none], some (loader 1)⟩,
   .newLoader,
   .newLoader,
   .defineClass "Base" (some (loader 3)),
   .release (loader 3)]

def crossed : Session SyntheticHeap where
  census := Census.idle (Latency.empty 1 Nat.one_pos)
  world := (operated crossedOperations .new).2

/-- An array that was made over another heap's class under the id of an own one. -/
def smuggled : Session SyntheticHeap where
  census := Census.idle (Latency.empty 1 Nat.one_pos)
  world := (operated [.defineClass "Base" none, .arrayOf (.plain ⟨12⟩ "Other" .concrete none)] .new).2

set_option maxRecDepth 20000 in
theorem smuggled_array_misnamed :
    Built smuggled.world ∧ ¬ Homegrown smuggled.world ∧
      ((resolve SyntheticHeap.walker "Base[]").perform smuggled).1.map
        (fun types => types.map HeapClass.canonicalName) = .ok ["Other[]"] := by
  -- It is found as the one array over the own class, and is shown under the foreign name.
  refine ⟨⟨_, rfl⟩, ?_, by cbv⟩
  intro homegrown
  have misnamed : ∃ entry ∈ smuggled.world.arrays, ∀ component ∈ smuggled.world.classes,
      entry.2.component? ≠ some component := by
    decide
  obtain ⟨entry, listed, foreign⟩ := misnamed
  obtain ⟨component, known, _, made⟩ := homegrown.own entry listed
  exact foreign component known made

end Query

end HeapCensus
