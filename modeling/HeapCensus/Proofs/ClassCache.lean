import HeapCensus.AgentTable
import HeapCensus.Proofs.ClassLookup
import Mathlib.Order.WellFounded
import Mathlib.Order.OrderIsoNat

set_option autoImplicit false

namespace HeapCensus

def HeapClass.components : HeapClass → List HeapClass
  | .plain .. => []
  | .array _ _ component _ => component :: component.components

theorem HeapClass.dimensions_components (type : HeapClass) : type.dimensions = type.components.length := by
  induction type with
  | plain => rfl
  | array id name component loader ih => exact congrArg Nat.succ ih

namespace Binding

variable {agent : Agent} {binding later : Binding} {handle : Nat} {type : HeapClass}

abbrev Names (agent : Agent) : Nat → HeapClass → Prop := Reads agent fun _ => none

/-- Why the descriptions give a handle no class: for itself, or for one that it leads to. -/
inductive Fails (agent : Agent) : Nat → WalkerError → Prop
  | none : Fails agent 0 (.unknownHandle 0)
  | refused {handle : Nat} :
      handle ≠ 0 → (agent.describe handle).1 ≠ 0 →
      Fails agent handle (.native "class_info" (agent.describe handle).1)
  | odd {handle : Nat} :
      handle ≠ 0 → (agent.describe handle).1 = 0 →
      (agent.describe handle).2.kind ≠ Description.arrayKind →
      plainKind? (agent.describe handle).2.kind = none →
      Fails agent handle (.fault ("Class " ++ Nat.repr handle ++ " has unknown kind " ++
        Nat.repr (agent.describe handle).2.kind))
  | component {handle : Nat} {error : WalkerError} :
      handle ≠ 0 → DescribesArray agent handle → Fails agent (agent.describe handle).2.component error →
      Fails agent handle error

inductive Unfolds (agent : Agent) : Nat → List Nat → Prop
  | plain {handle : Nat} {kind : Kind} :
      handle ≠ 0 → DescribesPlain agent handle kind → Unfolds agent handle []
  | array {handle : Nat} {chain : List Nat} :
      handle ≠ 0 → DescribesArray agent handle → Unfolds agent (agent.describe handle).2.component chain →
      Unfolds agent handle ((agent.describe handle).2.component :: chain)

structure ComponentOf (agent : Agent) (component handle : Nat) : Prop where
  other : handle ≠ 0
  array : DescribesArray agent handle
  leads : (agent.describe handle).2.component = component

/-- No array leads on from component to component for ever. -/
def Grounded (agent : Agent) : Prop :=
  ¬ ∃ chain : Nat → Nat, ∀ place, ComponentOf agent (chain (place + 1)) (chain place)

theorem component_well_founded (grounded : Grounded agent) : WellFounded (ComponentOf agent) := by
  apply wellFounded_iff_isEmpty_descending_chain.mpr
  constructor
  rintro ⟨chain, falls⟩
  exact grounded ⟨chain, falls⟩

theorem grounded_of_smaller
    (smaller : ∀ handle, DescribesArray agent handle → (agent.describe handle).2.component < handle) :
    Grounded agent := by
  rintro ⟨chain, leads⟩
  have falls : ∀ place, chain (place + 1) < chain place := by
    intro place
    have next := leads place
    rw [← next.leads]
    exact smaller _ next.array
  exact (wellFounded_iff_isEmpty_descending_chain.mp Nat.lt_wfRel.wf).false ⟨chain, falls⟩

theorem grounded_of_entries {table : AgentTable}
    (smaller : ∀ entry ∈ table.classes, entry.description.kind = Description.arrayKind →
      entry.description.component < entry.handle) :
    Grounded table.agent := by
  apply grounded_of_smaller
  intro handle array
  have kind : (table.describe handle).2.kind = Description.arrayKind := array.kind
  change (table.describe handle).2.component < handle
  unfold AgentTable.describe at kind ⊢
  split at kind
  · rename_i entry found
    have same : entry.handle = handle := by simpa using List.find?_some found
    rw [← same]
    exact smaller entry (List.mem_of_find?_eq_some found) kind
  · cases kind

theorem grounded_described {other : Agent} (same : other.describe = agent.describe) (grounded : Grounded agent) :
    Grounded other := by
  rintro ⟨chain, leads⟩
  refine grounded ⟨chain, fun place => ?_⟩
  obtain ⟨given, ⟨status, kind⟩, next⟩ := leads place
  rw [same] at status kind next
  exact ⟨given, ⟨status, kind⟩, next⟩

theorem settles_of_grounded (grounded : Grounded binding.agent) (handle : Nat) : Settles binding handle := by
  refine Subrelation.accessible (fun leads => ?_) ((component_well_founded grounded).apply handle)
  exact ⟨leads.unknown.other, leads.array, leads.leads⟩

theorem lookup_grounded (grounded : Grounded binding.agent) (handle : Nat) :
    binding.lookup? handle = some (binding.lookup handle) := by
  obtain ⟨done, found⟩ := (lookup_returns_iff binding handle).mpr (settles_of_grounded grounded handle)
  rw [lookup, found]
  rfl

theorem answer_grounded (grounded : Grounded binding.agent) (handle : Nat) :
    binding.answer? handle = some (binding.lookup handle).1 := by
  rw [answer?, lookup_grounded grounded]
  rfl

theorem fails_not_named {error : WalkerError} (fails : Fails agent handle error) : ¬ Names agent handle type := by
  intro names
  induction fails generalizing type with
  | none =>
      cases names with
      | known other => exact other rfl
      | plain unknown | array unknown => exact unknown.other rfl
  | refused _ status =>
      cases names with
      | known _ found => cases found
      | plain _ described | array _ described => exact status described.status
  | odd _ _ other odd =>
      cases names with
      | known _ found => cases found
      | plain _ described => cases odd.symm.trans described.kind
      | array _ described => exact other described.kind
  | component _ array _ ih =>
      cases names with
      | known _ found => cases found
      | plain _ described => exact not_array_of_plain described.kind array.kind
      | array _ _ inner => exact ih inner

theorem fails_unique {first second : WalkerError} (one : Fails agent handle first)
    (other : Fails agent handle second) : first = second := by
  induction one with
  | none =>
      cases other with
      | none => rfl
      | refused positive | odd positive | component positive => exact absurd rfl positive
  | refused positive status =>
      cases other with
      | none => exact absurd rfl positive
      | refused => rfl
      | odd _ success => exact absurd success status
      | component _ array => exact absurd array.status status
  | odd positive success kind =>
      cases other with
      | none => exact absurd rfl positive
      | refused _ status => exact absurd success status
      | odd => rfl
      | component _ array => exact absurd array.kind kind
  | component positive array _ ih =>
      cases other with
      | none => exact absurd rfl positive
      | refused _ status => exact absurd array.status status
      | odd _ _ kind => exact absurd array.kind kind
      | component _ _ inner => exact ih inner

theorem names_id (names : Names agent handle type) : type.id = ⟨handle⟩ := by
  cases names with
  | known _ found => cases found
  | plain | array => rfl

theorem names_unfolds (names : Names agent handle type) :
    Unfolds agent handle (type.components.map fun part => part.id.value) := by
  induction names with
  | known _ found => cases found
  | plain unknown described => exact .plain unknown.other described
  | @array handle component unknown described inner ih =>
      have same : component.id.value = (agent.describe handle).2.component := congrArg ClassId.value (names_id inner)
      rw [arrayFrom, HeapClass.components, List.map_cons, same]
      exact .array unknown.other described ih

theorem looks_fails {result : Except WalkerError HeapClass} {error : WalkerError}
    (looks : Looks binding handle result later) (fails : result = .error error) : Fails binding.agent handle error := by
  induction looks with
  | none =>
      cases fails
      exact .none
  | known | plain | array => cases fails
  | refused unknown status =>
      cases fails
      exact .refused unknown.other status
  | odd unknown success other odd =>
      cases fails
      exact .odd unknown.other success other odd
  | failed unknown described _ ih => exact .component unknown.other described (ih fails)

theorem lookup_looks (grounded : Grounded binding.agent) (handle : Nat) :
    Looks binding handle (binding.lookup handle).1 (binding.lookup handle).2 :=
  looks_of_lookup (lookup_grounded grounded handle)

theorem lookup_fails (grounded : Grounded binding.agent) {error : WalkerError}
    (failed : (binding.lookup handle).1 = .error error) : Fails binding.agent handle error :=
  looks_fails (lookup_looks grounded handle) failed

/-- What a binding remembers is what the descriptions say, together with all that it leads to. -/
structure Faithful (binding : Binding) : Prop where
  named : ∀ {handle : Nat} {type : HeapClass}, binding.known? handle = some type → Names binding.agent handle type
  within : ∀ {handle : Nat} {type component : HeapClass}, binding.known? handle = some type →
    type.component? = some component → binding.known? component.id.value = some component

theorem faithful_remember (faithful : Faithful binding) (names : Names binding.agent handle type)
    (leads : ∀ component, type.component? = some component →
      binding.known? component.id.value = some component) :
    (binding.remember handle type).2.agent = binding.agent ∧ Faithful (binding.remember handle type).2 ∧
      (binding.remember handle type).2.known? handle = some (binding.remember handle type).1 := by
  cases found : binding.known? handle with
  | some held =>
      rw [remember_known found]
      exact ⟨rfl, faithful, found⟩
  | none =>
      have agent : (binding.remember handle type).2.agent = binding.agent := by rw [remember_new found]
      -- only an absent handle is entered, so what the cache held stays
      have kept : ∀ {low : Nat} {known : HeapClass}, binding.known? low = some known →
          (binding.remember handle type).2.known? low = some known := by
        intro low known before
        rw [known_new found, if_neg]
        · exact before
        · rintro rfl
          cases found.symm.trans before
      refine ⟨agent, ⟨?_, ?_⟩, ?_⟩
      · intro low known now
        rw [agent]
        rw [known_new found] at now
        split at now
        · rename_i here
          obtain rfl := Option.some.inj now
          exact here ▸ names
        · exact faithful.named now
      · intro low known component now part
        rw [known_new found] at now
        split at now
        · obtain rfl := Option.some.inj now
          exact kept (leads component part)
        · exact kept (faithful.within now part)
      · rw [known_new found, if_pos rfl, remember_new found]

theorem faithful_asked (faithful : Faithful binding) : Faithful binding.asked := ⟨faithful.named, faithful.within⟩

theorem looks_faithful {result : Except WalkerError HeapClass} (looks : Looks binding handle result later)
    (faithful : Faithful binding) :
    later.agent = binding.agent ∧ Faithful later ∧
      ∀ type, result = .ok type → later.known? handle = some type := by
  induction looks with
  | none => exact ⟨rfl, faithful, nofun⟩
  | known other found =>
      refine ⟨rfl, faithful, ?_⟩
      rintro _ ⟨⟩
      exact found
  | refused | odd => exact ⟨rfl, faithful_asked faithful, nofun⟩
  | @plain binding handle kind unknown described =>
      have names : Names binding.agent handle (plainFrom binding.agent handle kind) :=
        .plain ⟨unknown.other, rfl⟩ described
      obtain ⟨agent, kept, held⟩ := faithful_remember (faithful_asked faithful) names nofun
      refine ⟨agent, kept, ?_⟩
      rintro _ ⟨⟩
      exact held
  | failed _ _ _ ih =>
      obtain ⟨agent, kept, _⟩ := ih (faithful_asked faithful)
      exact ⟨agent, kept, nofun⟩
  | @array binding after handle component unknown described _ ih =>
      -- the component went into the cache first, under its own handle
      obtain ⟨same, kept, answered⟩ := ih (faithful_asked faithful)
      have spoken : after.agent = binding.agent := same
      have inner := kept.named (answered component rfl)
      have leads : ∀ part, (arrayFrom binding.agent handle component).component? = some part →
          after.known? part.id.value = some part := by
        rintro _ ⟨⟩
        rw [names_id inner]
        exact answered component rfl
      rw [spoken] at inner
      have names : Names after.agent handle (arrayFrom binding.agent handle component) :=
        spoken.symm ▸ .array ⟨unknown.other, rfl⟩ described inner
      obtain ⟨agent, last, held⟩ := faithful_remember kept names leads
      refine ⟨agent.trans spoken, last, ?_⟩
      rintro _ ⟨⟩
      exact held

theorem lookup_faithful (faithful : Faithful binding) (handle : Nat) :
    Faithful (binding.lookup handle).2 := by
  cases found : binding.lookup? handle with
  | none =>
      rw [lookup, found]
      exact faithful
  | some done =>
      rw [lookup, found]
      exact (looks_faithful (looks_of_lookup found) faithful).2.1

theorem answer_remembered (faithful : Faithful binding) {type : HeapClass}
    (answered : binding.answer? handle = some (.ok type)) : (binding.lookup handle).2.known? handle = some type := by
  obtain ⟨⟨_, later⟩, found, rfl⟩ := Option.map_eq_some_iff.mp answered
  rw [lookup, found]
  exact (looks_faithful (looks_of_lookup found) faithful).2.2 type rfl

/-- What a binding can have been through since it was loaded: objects were visited and handles looked up,
and the agent may have changed in all but its descriptions. -/
inductive Used : Binding → Prop
  | loaded {path : String} {file : LibraryFile} {binding : Binding} : load path file = .ok binding → Used binding
  | visited {binding : Binding} : Used binding → Used binding.visited
  | looked {binding : Binding} (handle : Nat) : Used binding → Used (binding.lookup handle).2
  | turned {binding : Binding} {agent : Agent} :
      Used binding → agent.describe = binding.agent.describe → Used (binding.replaceAgent agent)

theorem names_described {other : Agent} (same : other.describe = agent.describe)
    (names : Names agent handle type) : Names other handle type := by
  induction names with
  | known _ found => cases found
  | @plain handle kind unknown described =>
      have alike : plainFrom other handle kind = plainFrom agent handle kind := by rw [plainFrom, plainFrom, same]
      rw [← alike]
      exact .plain unknown ⟨same ▸ described.status, same ▸ described.kind⟩
  | @array handle component unknown described _ ih =>
      have alike : arrayFrom other handle component = arrayFrom agent handle component := by
        rw [arrayFrom, arrayFrom, same]
      rw [← alike]
      exact .array unknown ⟨same ▸ described.status, same ▸ described.kind⟩ (same ▸ ih)

theorem load_empty {path : String} {file : LibraryFile} (loaded : load path file = .ok binding) :
    binding.known = [] := by
  unfold load at loaded
  split at loaded
  · cases loaded
  · cases loaded
  · split at loaded
    · cases loaded
    · cases loaded
      rfl

theorem used_faithful (used : Used binding) : Faithful binding := by
  induction used with
  | loaded loaded =>
      constructor <;> intro _ _ <;> simp [known?, load_empty loaded]
  | visited _ ih => exact ⟨ih.named, ih.within⟩
  | looked handle _ ih => exact lookup_faithful ih handle
  | turned _ same ih => exact ⟨fun found => names_described same (ih.named found), ih.within⟩

def emptied (binding : Binding) : Binding := { binding with known := [] }

theorem remembers_emptied (faithful : Faithful binding) : Remembers binding.emptied binding :=
  ⟨rfl, nofun, fun _ _ _ found => faithful.named found⟩

theorem named_iff (faithful : Faithful binding) (handle : Nat) (type : HeapClass) :
    binding.answer? handle = some (.ok type) ↔ Names binding.agent handle type := by
  rw [answer_stable (remembers_emptied faithful)]
  exact answer_ok_iff binding.emptied handle type

theorem lookup_named_iff (faithful : Faithful binding) (grounded : Grounded binding.agent) (handle : Nat)
    (type : HeapClass) : (binding.lookup handle).1 = .ok type ↔ Names binding.agent handle type := by
  rw [← named_iff faithful, answer_grounded grounded, Option.some_inj]

theorem failed_iff (faithful : Faithful binding) (grounded : Grounded binding.agent) (handle : Nat)
    (error : WalkerError) :
    (binding.lookup handle).1 = .error error ↔ Fails binding.agent handle error := by
  apply Iff.intro (lookup_fails grounded)
  intro fails
  cases found : (binding.lookup handle).1 with
  | ok type => exact absurd ((lookup_named_iff faithful grounded handle type).mp found) (fails_not_named fails)
  | error other => rw [fails_unique (lookup_fails grounded found) fails]

theorem known_components (faithful : Faithful binding) (found : binding.known? handle = some type) :
    ∀ part ∈ type.components, binding.known? part.id.value = some part := by
  induction type generalizing handle with
  | plain => exact nofun
  | array id name component loader ih =>
      have held := faithful.within found rfl
      intro part listed
      cases listed with
      | head => exact held
      | tail _ below => exact ih held part below

theorem fails_unknown {error : WalkerError} (faithful : Faithful binding) (fails : Fails binding.agent handle error) :
    binding.known? handle = none := by
  cases found : binding.known? handle with
  | none => rfl
  | some type => exact absurd (faithful.named found) (fails_not_named fails)

/-- The memory shows in no answer, and holds what it would answer. -/
structure Transparent (binding : Binding) : Prop where
  returns : ∀ handle, binding.lookup? handle = some (binding.lookup handle)
  alike : ∀ handle, (binding.lookup handle).1 = (binding.emptied.lookup handle).1
  found : ∀ handle type, (binding.lookup handle).1 = .ok type ↔ Names binding.agent handle type
  failed : ∀ handle error, (binding.lookup handle).1 = .error error ↔ Fails binding.agent handle error
  known : ∀ handle type, binding.known? handle = some type →
    type.id = ⟨handle⟩ ∧ (binding.lookup handle).1 = .ok type ∧
      ∀ part ∈ type.components,
        binding.known? part.id.value = some part ∧ (binding.lookup part.id.value).1 = .ok part
  remembered : ∀ handle type, (binding.lookup handle).1 = .ok type →
    (binding.lookup handle).2.known? handle = some type
  unknown : ∀ handle error, (binding.lookup handle).1 = .error error →
    binding.known? handle = none ∧ (binding.lookup handle).2.known? handle = none
  unfolded : ∀ handle type, (binding.lookup handle).1 = .ok type →
    type.id = ⟨handle⟩ ∧ Unfolds binding.agent handle (type.components.map fun part => part.id.value) ∧
      type.dimensions = type.components.length

theorem class_cache_transparent (used : Used binding) (grounded : Grounded binding.agent) :
    Transparent binding := by
  have faithful := used_faithful used
  have answers := answer_grounded grounded
  constructor
  case returns => exact lookup_grounded grounded
  case alike =>
    intro handle
    have same := answer_stable (remembers_emptied faithful) handle
    have emptied : Grounded binding.emptied.agent := grounded
    rw [answers, answer_grounded emptied] at same
    exact Option.some.inj same
  case found => exact lookup_named_iff faithful grounded
  case failed => exact failed_iff faithful grounded
  case remembered =>
    intro handle type found
    exact answer_remembered faithful ((answers handle).trans (congrArg some found))
  case known =>
    intro handle type found
    have named := faithful.named found
    refine ⟨names_id named, (lookup_named_iff faithful grounded handle type).mpr named, ?_⟩
    intro part listed
    have held := known_components faithful found part listed
    exact ⟨held, (lookup_named_iff faithful grounded _ part).mpr (faithful.named held)⟩
  case unknown =>
    intro handle error failed
    have fails := lookup_fails grounded failed
    have same := (lookup_remembers binding handle).agent
    exact ⟨fails_unknown faithful fails, fails_unknown (lookup_faithful faithful handle) (same.symm ▸ fails)⟩
  case unfolded =>
    intro handle type found
    have named := (lookup_named_iff faithful grounded handle type).mp found
    exact ⟨names_id named, names_unfolds named, type.dimensions_components⟩

def nested : Agent :=
  let entry (handle : Nat) (status : Int) (kind component : Nat) : ClassEntry :=
    ⟨handle, status, { Description.blank with kind := kind, component := component }⟩
  AgentTable.agent
    { wasLoaded := 1
      loaderClass := 0
      classes := [entry 1 0 0 0, entry 2 0 4 1, entry 3 0 4 2, entry 4 7 0 0, entry 9 0 4 4]
      objects := []
      matching := []
      looseExact := false
      ignoreBound := false
      statuses := []
      script := none
      loadable := []
      arrays := []
      primitives := [] }

def linked : Binding := ⟨nested, [], "library", true, 0, 0⟩

def searched : Binding := ((linked.lookup 9).2.lookup 3).2

theorem searched_transparent :
    Used searched ∧ Grounded searched.agent ∧ Transparent searched ∧
      (∃ type, (searched.lookup 3).1 = .ok type ∧ type.dimensions = 2) ∧
      (searched.lookup 9).1 = .error (.native "class_info" 7) := by
  have loaded : load "library" (.exporting requiredSymbols nested) = .ok linked := by rfl
  have used : Used searched := .looked 3 (.looked 9 (.loaded loaded))
  have same : searched.agent = nested :=
    (lookup_remembers (linked.lookup 9).2 3).agent.trans (lookup_remembers linked 9).agent
  have grounded : Grounded searched.agent := by
    rw [same]
    exact grounded_of_entries (by decide)
  have transparent := class_cache_transparent used grounded
  refine ⟨used, grounded, transparent, ?_, ?_⟩
  · have names : Names nested 3 (arrayFrom nested 3 (arrayFrom nested 2 (plainFrom nested 1 .concrete))) :=
      .array ⟨by decide, rfl⟩ ⟨rfl, rfl⟩
        (.array ⟨by decide, rfl⟩ ⟨rfl, rfl⟩ (.plain ⟨by decide, rfl⟩ ⟨rfl, rfl⟩))
    exact ⟨_, (transparent.found 3 _).mpr (same ▸ names), rfl⟩
  · have fails : Fails nested 9 (.native "class_info" 7) :=
      .component (by decide) ⟨rfl, rfl⟩ (@Fails.refused nested 4 (by decide) (by decide))
    exact (transparent.failed 9 _).mpr (same ▸ fails)

end Binding

end HeapCensus
