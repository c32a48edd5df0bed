import HeapCensus.Proofs.OpenScans
import HeapCensus.Proofs.Remembering
import HeapCensus.Proofs.TagAccounts
import HeapCensus.Proofs.Totals

set_option autoImplicit false

namespace HeapCensus

namespace SyntheticHeap

theorem length_arrays_of (heap : SyntheticHeap) (components : List HeapClass) :
    (arraysOf heap components).1.length = components.length := by
  induction components generalizing heap with
  | nil => rfl
  | cons component components ih => exact congrArg (· + 1) (ih (heap.arrayOf component).2)

end SyntheticHeap

namespace Resolutions

theorem short_created {lifetime : Nat} {resolutions : Resolutions} (created : create lifetime = .ok resolutions) :
    resolutions.Short := by
  unfold create at created
  by_cases long : lifetimeLimit < lifetime
  · rw [if_pos long] at created
    cases created
  · rw [if_neg long] at created
    obtain rfl := Except.ok.inj created
    exact fun entry member => nomatch member

end Resolutions

namespace Query

open Activity (Carries)
open Latency (Grown)
open Registry (Running)

section Idle

variable {ω α : Type} {walker : Walker ω} {world : ω → Prop} {latency : Latency}

structure Idle (latency : Latency) (world : ω → Prop) (session : Session ω) : Prop where
  latency : session.census.registry.latency = latency
  scans : session.census.registry.scans = []
  world : world session.world

def idling (latency : Latency) (world : ω → Prop) : Custody (Session ω) Nat :=
  Custody.accounting (Idle latency world) fun _ _ => True

structure Untouched (walker : Walker ω) (world : ω → Prop) : Prop where
  asks : ∀ tag change, Asks walker tag change → ∀ state, world state → world (change state)
  visits : ∀ change, Visits walker change → ∀ state, world state → world (change state)

theorem idle_allowed {session after : Session ω} {own next : Nat}
    (untimed : after.census.registry.latency = session.census.registry.latency)
    (same : after.census.registry.scans = session.census.registry.scans)
    (kept : world session.world → world after.world) : (idling latency world).Allows session own after next :=
  fun idle => ⟨⟨untimed.trans idle.latency, same.trans idle.scans, kept idle.world⟩, fun _ _ => trivial⟩

theorem idle_charges (untouched : Untouched walker world) :
    Charging walker (idling latency world) (fun _ => 0) 0 where
  looks _ _ := idle_allowed rfl rfl id
  takes _ _ := idle_allowed rfl rfl id
  asks tag change asks session _ := idle_allowed rfl rfl (untouched.asks tag change asks session.world)
  visits change visits session _ := idle_allowed rfl rfl (untouched.visits change visits session.world)
  consults _ _ _ := idle_allowed rfl rfl id

theorem supplies_idling (producer : Producer ω) : Supplies (idling latency fun _ => True) 0 producer 0 := by
  induction producer with
  | stop result => rfl
  | call offer resume ih => exact ⟨rfl, ih⟩
  | act change resume ih =>
      intro session idle
      have allowed : (idling latency fun _ => True).Allows session 0 (session.setWorld (change session.world)) 0 :=
        idle_allowed rfl rfl id
      obtain ⟨still, moved⟩ := allowed idle
      exact ⟨still, 0, moved, ih session.world⟩

def Operation.Scans : Operation → Prop
  | cardinality _ _ | topInstances _ _ _ => True
  | countExact _ _ | countAny _ _ | instancesOf _ _ | instancesOfAny _ _ | enumerate _ _ | forEach _ _
  | resolve _ | countOf _ | countOfAny _ => False

theorem idle_operation (walker : Walker ω) (operation : Operation) (silent : ¬ operation.Scans) :
    Costs (idling latency fun _ => True) (fun _ => True) (operation.query walker) := by
  have charging : Charging walker (idling latency fun _ => True) (fun _ => 0) 0 :=
    idle_charges ⟨fun _ _ _ _ _ => trivial, fun _ _ _ _ => trivial⟩
  cases operation with
  | cardinality | topInstances => exact absurd trivial silent
  | countExact | countAny | instancesOf | instancesOfAny | resolve | countOf | countOfAny =>
      exact costs_weaken (repeats_plain charging trivial) fun _ _ => trivial
  | enumerate type max =>
      apply costs_value
      exact Activity.carries_weaken (fun _ _ _ => trivial) (enumerate_opens charging (fun _ => True) (fun _ _ _ _ => trivial) type max)
  | forEach type max =>
      have closes := enumerated_closes charging (fun _ => True) (fun _ _ _ _ => trivial)
        (fun type tag bound => supplies_idling (producer walker type tag bound)) type max (limitOf max)
      change Carries (idling latency fun _ => True) _ (Dialogue.bind (forEachInstance walker type max) _) 0
      rw [for_each_enumerated, Activity.bind_assoc]
      apply Activity.carries_bind _ _ closes
      exact fun own told closed => trivial

end Idle

section Short

theorem resolve_dimensions_short (base : String) (dimensions : Nat) (session : Session SyntheticHeap) :
    ∃ types after, (resolveDimensions SyntheticHeap.walker base dimensions).perform session = (.ok types, after) ∧
      types.length ≤ UInt32.size := by
  induction dimensions with
  | zero =>
      obtain ⟨types, after, performed, finds⟩ := resolve_base_finds session base
      exact ⟨types, after, performed, finds.short⟩
  | succ dimensions ih =>
      obtain ⟨components, between, performed, short⟩ := ih
      refine ⟨_, _, (perform_ok performed).trans (arrays_over_performed [] components between), ?_⟩
      have fewer := length_insert_all_le [] (SyntheticHeap.arraysOf between.world components).1
      rw [SyntheticHeap.length_arrays_of, List.length_nil, Nat.zero_add] at fewer
      exact Nat.le_trans fewer short

theorem fresh_short {name : TypeName} {types : List HeapClass} {session found : Session SyntheticHeap}
    (performed : (resolveFresh SyntheticHeap.walker name).perform session = (.ok types, found)) :
    types.length ≤ UInt32.size := by
  obtain ⟨listed, after, again, short⟩ := resolve_dimensions_short name.base name.dimensions session
  rw [resolveFresh, again] at performed
  obtain ⟨outcome, _⟩ := Prod.mk.inj performed
  obtain rfl := Except.ok.inj outcome
  exact short

theorem resolve_short {text : String} {types : List HeapClass} {session after : Session SyntheticHeap}
    (short : session.census.resolutions.Short)
    (resolved : (resolve SyntheticHeap.walker text).perform session = (.ok types, after)) :
    types.length ≤ UInt32.size := by
  have looks := resolve_looks SyntheticHeap.walker text session
  rw [resolved] at looks
  cases looks with
  | remembered name types parsed remembered =>
      obtain ⟨entry, member, _, _, rfl⟩ := Resolutions.entry_of_find remembered
      exact short entry member
  | found name types found parsed uncached performed => exact fresh_short performed

theorem memory_short (text : String) {session : Session SyntheticHeap} (short : session.census.resolutions.Short) :
    ((resolve SyntheticHeap.walker text).perform session).2.census.resolutions.Short := by
  have looks := resolve_looks SyntheticHeap.walker text session
  generalize (resolve SyntheticHeap.walker text).perform session = performed at looks
  obtain ⟨outcome, after⟩ := performed
  cases looks with
  | unparsed | remembered => exact short
  | failed name failure found parsed uncached performed =>
      have spared := spares_perform (spares_resolve_fresh SyntheticHeap.walker name) session.missed
      rw [performed] at spared
      rw [spared.resolutions]
      exact short
  | found name types found parsed uncached performed =>
      have spared := spares_perform (spares_resolve_fresh SyntheticHeap.walker name) session.missed
      rw [performed] at spared
      intro entry member
      rcases Resolutions.mem_remember member with kept | ⟨_, rfl⟩
      · rw [spared.resolutions] at kept
        exact short entry kept
      · exact fresh_short performed

theorem operation_short (operation : Operation) {session : Session SyntheticHeap}
    (short : session.census.resolutions.Short) :
    ((operation.query SyntheticHeap.walker).perform session).2.census.resolutions.Short := by
  cases given : operation.text? with
  | none =>
      have spared := spares_perform (Operation.spares_of_no_text SyntheticHeap.walker operation given) session
      rw [spared.resolutions]
      exact short
  | some text =>
      have recalled := begins_recalls (Operation.begins_of_text SyntheticHeap.walker operation text given) session
      rw [recalled.resolutions]
      exact memory_short text short

end Short

section Scans

variable {session : Session SyntheticHeap}

/-- How many scans an operation makes: one of a class, or one of each type that a name denotes. -/
def Operation.scansIn (session : Session SyntheticHeap) : Operation → Nat
  | cardinality _ max => if max < 0 then 0 else 1
  | topInstances name rows _ =>
      if rows = 0 then 0 else rootsOf ((Query.resolve SyntheticHeap.walker name).perform session).1
  | countExact _ _ | countAny _ _ | instancesOf _ _ | instancesOfAny _ _ | enumerate _ _ | forEach _ _
  | resolve _ | countOf _ | countOfAny _ => 0

def Operation.timed (operation : Operation) (session : Session SyntheticHeap) : Nat :=
  if session.world.failScans || session.world.skipCompletion then 0 else operation.scansIn session

theorem timed_eq (operation : Operation) (session : Session SyntheticHeap) :
    operation.timed session =
      operation.scansIn session * latenciesOf session.world.failScans session.world.skipCompletion := by
  unfold Operation.timed latenciesOf
  split
  · rfl
  · exact (Nat.mul_one _).symm

structure Timed (amount : Nat) (session after : Session SyntheticHeap) : Prop where
  scans : after.census.registry.scans = []
  latency : Grown amount session.census.registry.latency after.census.registry.latency

theorem timed_idle {world : SyntheticHeap → Prop} {after : Session SyntheticHeap}
    (idle : Idle session.census.registry.latency world after) : Timed 0 session after :=
  ⟨idle.scans, idle.latency ▸ Latency.grown_nothing _⟩

theorem timed_run {α : Type} {query : Query SyntheticHeap α} {needed amount : Nat}
    (bears : Bears (scanning session.census.registry.latency session.world.failScans session.world.skipCompletion)
      (· = (0, 0, amount)) query (needed, 0, 0))
    (still : session.census.registry.scans = []) (few : needed < UInt64.size) :
    Timed amount session (query.perform session).2 := by
  have running : Running session.census.registry.latency session.census.registry (0 + (needed, 0, 0)) := by
    rw [zero_add]
    exact ⟨few, Registry.open_none.mpr still, fun _ none => absurd none (Multiset.notMem_zero _), Latency.grown_nothing _⟩
  obtain ⟨_, next, ended, rfl⟩ := Activity.carries_run bears ⟨rfl, rfl⟩ running
  rw [zero_add] at ended
  exact ⟨Registry.open_none.mp ended.scans, ended.latency⟩

theorem synthetic_untouched (fails skips : Bool) :
    Untouched SyntheticHeap.walker fun heap => heap.failScans = fails ∧ heap.skipCompletion = skips where
  asks := by
    intro tag change asks heap kept
    cases asks <;> exact kept
  visits := by
    intro change visits heap kept
    cases visits with
    | classLoaderClass | loadClass | primitiveClass => exact kept
    | arrayClass component =>
        change (heap.arrayOf component).2.failScans = fails ∧ (heap.arrayOf component).2.skipCompletion = skips
        unfold SyntheticHeap.arrayOf
        split <;> exact kept

theorem idle_resolved (text : String) (still : session.census.registry.scans = []) :
    Idle session.census.registry.latency
      (fun heap => heap.failScans = session.world.failScans ∧ heap.skipCompletion = session.world.skipCompletion)
      ((resolve SyntheticHeap.walker text).perform session).2 := by
  have charging : Charging SyntheticHeap.walker (idling session.census.registry.latency fun heap =>
      heap.failScans = session.world.failScans ∧ heap.skipCompletion = session.world.skipCompletion) (fun _ => 0) 0 :=
    idle_charges (synthetic_untouched _ _)
  exact Activity.carries_kept (costs_resolve charging text) ⟨rfl, still, rfl, rfl⟩

theorem top_instances_timed (name : String) {rows : Nat} (positive : rows ≠ 0) (withoutPrimitives : Bool)
    (still : session.census.registry.scans = []) (short : session.census.resolutions.Short) :
    Timed (rootsOf ((resolve SyntheticHeap.walker name).perform session).1 *
        latenciesOf session.world.failScans session.world.skipCompletion) session
      ((topInstances SyntheticHeap.walker name rows withoutPrimitives).perform session).2 := by
  have idle := idle_resolved name still
  have looked : (look (·.census.clock) : Query SyntheticHeap Nat).perform session =
      (.ok session.census.clock, session) := rfl
  rw [top_instances_eq SyntheticHeap.walker name positive, perform_ok looked]
  cases resolved : (resolve SyntheticHeap.walker name).perform session with
  | mk outcome found =>
      rw [resolved] at idle
      cases outcome with
      | error failure =>
          rw [perform_bind, resolveSome, perform_bind, resolved, rootsOf, Nat.zero_mul]
          exact timed_idle idle
      | ok types =>
          by_cases unmatched : types = []
          · subst unmatched
            rw [perform_bind, resolve_some_missing resolved, rootsOf, List.length_nil, Nat.zero_mul]
            exact timed_idle idle
          · rw [perform_ok (resolve_some_perform resolved unmatched)]
            have few : types.length < UInt64.size := Nat.lt_of_le_of_lt (resolve_short short resolved) (by decide)
            have ranked := timed_run
              (bears_rank_found name rows withoutPrimitives session.census.clock types) idle.scans few
            rw [idle.world.1, idle.world.2] at ranked
            exact ⟨ranked.scans, idle.latency ▸ ranked.latency⟩

theorem operation_timed (operation : Operation) (still : session.census.registry.scans = [])
    (short : session.census.resolutions.Short) :
    Timed (operation.timed session) session ((operation.query SyntheticHeap.walker).perform session).2 := by
  rw [timed_eq]
  have untimed : ∀ {operation : Operation}, ¬ operation.Scans →
      Timed 0 session ((operation.query SyntheticHeap.walker).perform session).2 := by
    intro operation silent
    have idle : Idle session.census.registry.latency (fun _ => True) session := ⟨rfl, still, trivial⟩
    exact timed_idle (Activity.carries_kept (idle_operation SyntheticHeap.walker operation silent) idle)
  have refused : ∀ {operation : Operation}, operation.Rejected →
      Timed 0 session ((operation.query SyntheticHeap.walker).perform session).2 := by
    intro operation rejected
    obtain ⟨text, refused⟩ := Operation.refuses_of_rejected SyntheticHeap.walker operation rejected
    rw [refused session]
    exact ⟨still, Latency.grown_nothing _⟩
  cases operation with
  | countExact | countAny | instancesOf | instancesOfAny | enumerate | forEach | resolve | countOf | countOfAny =>
      rw [Operation.scansIn, Nat.zero_mul]
      exact untimed id
  | cardinality type max =>
      rw [Operation.scansIn]
      by_cases negative : max < 0
      · rw [if_pos negative, Nat.zero_mul]
        exact refused negative
      · rw [if_neg negative, Nat.one_mul]
        have timed := timed_run (bears_cardinality type (Int.not_lt.mp negative)) still (by decide)
        rwa [← perform_value] at timed
  | topInstances name rows withoutPrimitives =>
      rw [Operation.scansIn]
      by_cases none : rows = 0
      · rw [if_pos none, Nat.zero_mul]
        exact refused (.inl none)
      · rw [if_neg none]
        have timed := top_instances_timed name none withoutPrimitives still short
        rwa [← perform_value] at timed

end Scans

section Runs

/-- What leaves the registry alone. Resolutions may leave the memory, the rest may become anything. -/
structure Elsewhere (session after : Session SyntheticHeap) : Prop where
  registry : after.census.registry = session.census.registry
  entries : after.census.resolutions.entries ⊆ session.census.resolutions.entries

/-- What happens to a census: it is asked for something, its latencies are reset, one of its streams is read
or left, or the heap changes, time passes and resolutions are forgotten. -/
inductive Happening where
  | asked (operation : Operation)
  | reset (all : Bool)
  | taken (feed : Feed SyntheticHeap) (limit : Nat)
  | left (feed : Feed SyntheticHeap)
  | passed (change : Session SyntheticHeap → Session SyntheticHeap)
      (elsewhere : ∀ session, Elsewhere session (change session))

def Happening.after (session : Session SyntheticHeap) : Happening → Session SyntheticHeap
  | asked operation => ((operation.query SyntheticHeap.walker).perform session).2
  | reset all => session.resetLatencies all
  | taken feed limit => (Activity.run (takeFrom feed limit) session).2
  | left feed => (Activity.run (onWorld feed.leave) session).2
  | passed change _ => change session

def lived (first : Session SyntheticHeap) : List Happening → Session SyntheticHeap
  | [] => first
  | happening :: past => happening.after (lived first past)

/-- How many scans left a latency behind after the last reset that is marked. -/
def timedSince (marked : Bool → Bool) (first : Session SyntheticHeap) : List Happening → Nat
  | [] => 0
  | .asked operation :: past => operation.timed (lived first past) + timedSince marked first past
  | .reset all :: past => if marked all then 0 else timedSince marked first past
  | .taken _ _ :: past | .left _ :: past | .passed _ _ :: past => timedSince marked first past

variable {first session : Session SyntheticHeap} {past : List Happening} {capacity : Nat}

theorem on_world_elsewhere {α : Type} (activity : Activity SyntheticHeap α) (session : Session SyntheticHeap) :
    Elsewhere session (Activity.run (onWorld activity) session).2 := by
  have stays : Activity.Within (Elsewhere session) (fun _ => True) (onWorld activity) := by
    induction activity with
    | stop result => trivial
    | act change resume ih => exact fun later kept => ⟨⟨kept.registry, kept.entries⟩, ih later.world⟩
    | call command => exact nomatch command
  exact (Activity.run_within stays ⟨rfl, List.Subset.refl _⟩).1

structure AtRest (capacity whole recent : Nat) (session : Session SyntheticHeap) : Prop where
  scans : session.census.registry.scans = []
  short : session.census.resolutions.Short
  slots : session.census.registry.latency.capacity = capacity
  count : session.census.registry.latency.count = whole
  size : session.census.registry.latency.size = Nat.min capacity recent

theorem rest_elsewhere {after : Session SyntheticHeap} {whole recent : Nat}
    (rest : AtRest capacity whole recent session) (elsewhere : Elsewhere session after) :
    AtRest capacity whole recent after := by
  have same := elsewhere.registry
  have short : after.census.resolutions.Short := fun entry member => rest.short entry (elsewhere.entries member)
  exact ⟨same ▸ rest.scans, short, same ▸ rest.slots, same ▸ rest.count, same ▸ rest.size⟩

theorem rest_asked {whole recent : Nat} (rest : AtRest capacity whole recent session) (operation : Operation) :
    AtRest capacity (operation.timed session + whole) (operation.timed session + recent)
      ((operation.query SyntheticHeap.walker).perform session).2 := by
  have timed := operation_timed operation rest.scans rest.short
  refine ⟨timed.scans, operation_short operation rest.short, timed.latency.capacity.trans rest.slots, ?_, ?_⟩
  · rw [timed.latency.count, rest.count, Nat.add_comm]
  · rw [timed.latency.size, rest.slots, rest.size, Latency.min_add_min, Nat.add_comm]

theorem rest_reset {whole recent : Nat} (rest : AtRest capacity whole recent session) (all : Bool) :
    AtRest capacity (if all then 0 else whole) 0 (session.resetLatencies all) := by
  cases all with
  | true => exact ⟨rest.scans, rest.short, rest.slots, rfl, (Nat.min_zero capacity).symm⟩
  | false => exact ⟨rest.scans, rest.short, rest.slots, rest.count, (Nat.min_zero capacity).symm⟩

theorem rest_lived (rest : AtRest capacity 0 0 first) (past : List Happening) :
    AtRest capacity (timedSince id first past) (timedSince (fun _ => true) first past) (lived first past) := by
  induction past with
  | nil => exact rest
  | cons happening past ih =>
      cases happening with
      | asked operation => exact rest_asked ih operation
      | reset all => exact rest_reset ih all
      | taken feed limit => exact rest_elsewhere ih (on_world_elsewhere _ _)
      | left feed => exact rest_elsewhere ih (on_world_elsewhere _ _)
      | passed change elsewhere => exact rest_elsewhere ih (elsewhere _)

theorem rest_new {settings : CensusSettings} {machine : Machine} {census : Census} (world : SyntheticHeap)
    (created : Census.new settings machine = .ok census) : AtRest settings.historyCapacity 0 0 ⟨census, world⟩ := by
  unfold Census.new Latency.new at created
  by_cases positive : 0 < settings.historyCapacity
  · rw [dif_pos positive] at created
    by_cases small : settings.historyCapacity < Latency.slotLimit
    · rw [if_pos small] at created
      cases refused : machine.pool (Nat.max settings.workers 1) with
      | some text =>
          rw [refused] at created
          cases created
      | none =>
          rw [refused] at created
          cases made : Resolutions.create settings.resolutionSeconds with
          | error payload =>
              rw [made] at created
              cases created
          | ok resolutions =>
              rw [made] at created
              obtain rfl := Except.ok.inj created
              exact ⟨rfl, Resolutions.short_created made, rfl, rfl, (Nat.min_zero _).symm⟩
    · rw [if_neg small] at created
      cases created
  · rw [dif_neg positive] at created
    cases created

structure TimingsKept (settings : CensusSettings) (first : Session SyntheticHeap) (past : List Happening) : Prop where
  count : (lived first past).latencyStats.count = timedSince id first past
  size : (lived first past).latencyStats.size =
    Nat.min settings.historyCapacity (timedSince (fun _ => true) first past)
  inFlight : (lived first past).inFlight = 0
  silent : ∀ operation : Operation, ¬ operation.Scans ∨ operation.Rejected →
    ((operation.query SyntheticHeap.walker).perform (lived first past)).2.census.registry.latency =
      (lived first past).census.registry.latency

theorem timings_accounted (settings : CensusSettings) (machine : Machine) (census : Census) (world : SyntheticHeap)
    (created : Census.new settings machine = .ok census) (past : List Happening) :
    TimingsKept settings ⟨census, world⟩ past := by
  have rest := rest_lived (rest_new world created) past
  refine ⟨rest.count, rest.size, congrArg List.length rest.scans, fun operation spared => ?_⟩
  rcases spared with silent | rejected
  · have idle : Idle _ (fun _ => True) (lived ⟨census, world⟩ past) := ⟨rfl, rest.scans, trivial⟩
    exact (Activity.carries_kept (idle_operation SyntheticHeap.walker operation silent) idle).latency
  · obtain ⟨text, refused⟩ := Operation.refuses_of_rejected SyntheticHeap.walker operation rejected
    rw [refused]

def twice : SyntheticHeap :=
  let base := SyntheticHeap.new.defineClass "Base" none
  let loader := base.2.newLoader
  (loader.2.defineClass "Base" (some loader.1)).2

def timedCensus : Census :=
  { Census.idle (Latency.empty 2 Nat.two_pos) with
    settings := { CensusSettings.standard 1 with historyCapacity := 2 } }

def failingScans (fails : Bool) : Happening :=
  .passed (fun session => session.setWorld { session.world with failScans := fails })
    fun _ => ⟨rfl, List.Subset.refl _⟩

def eventful : List Happening :=
  [.asked (.cardinality SyntheticHeap.objectClass 0), failingScans true, .asked (.cardinality SyntheticHeap.objectClass 0),
    .reset false, .asked (.topInstances "Base" 1 false), .reset true, .asked (.cardinality SyntheticHeap.objectClass 0)]

set_option maxRecDepth 20000 in
theorem eventful_timings_accounted :
    Census.new timedCensus.settings .ample = .ok timedCensus ∧
      TimingsKept timedCensus.settings ⟨timedCensus, twice⟩ eventful ∧
      (lived ⟨timedCensus, twice⟩ eventful).latencyStats.count = 3 ∧
      (lived ⟨timedCensus, twice⟩ eventful).latencyStats.size = 1 := by
  have created : Census.new timedCensus.settings .ample = .ok timedCensus := rfl
  have kept := timings_accounted timedCensus.settings .ample timedCensus twice created eventful
  exact ⟨created, kept, kept.count.trans (by cbv), kept.size.trans (by cbv)⟩

end Runs

end Query

end HeapCensus
