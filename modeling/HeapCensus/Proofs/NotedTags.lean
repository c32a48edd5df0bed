import HeapCensus.Proofs.FeedCharges

set_option autoImplicit false

namespace HeapCensus

variable {ω M α β : Type} [AddCommMonoid M]

namespace Walker

def silentWalk (walk : Walk ω α) : Walk (List Tag × ω) α :=
  ExceptT.mk fun world =>
    let called := walk.call world.2
    (called.1, world.1, called.2)

def notedWalk (tag : Tag) (walk : Walk ω α) : Walk (List Tag × ω) α :=
  ExceptT.mk fun world =>
    let called := walk.call world.2
    (called.1, tag :: world.1, called.2)

def notedTalk {κ ρ : Type} (tag : Tag) (talk : ExceptT (Failure WalkerError) (Dialogue ω κ ρ) α) :
    ExceptT (Failure WalkerError) (Dialogue (List Tag × ω) κ ρ) α :=
  ExceptT.mk do
    Dialogue.change fun world => (tag :: world.1, world.2)
    talk.run.zoom Prod.snd fun own world => (world.1, own)

def noted (walker : Walker ω) : Walker (List Tag × ω) where
  countExact type tag bound := notedWalk tag (walker.countExact type tag bound)
  countAny type tag bound := notedWalk tag (walker.countAny type tag bound)
  instancesExact type tag bound := notedWalk tag (walker.instancesExact type tag bound)
  instancesAny type tag bound := notedWalk tag (walker.instancesAny type tag bound)
  scan type tag bound := notedTalk tag (walker.scan type tag bound)
  enumerate type tag bound := notedTalk tag (walker.enumerate type tag bound)
  classLoaderClass := silentWalk walker.classLoaderClass
  loadClass loader name := silentWalk (walker.loadClass loader name)
  arrayClass component := silentWalk (walker.arrayClass component)
  primitiveClass name := fun world =>
    let called := (walker.primitiveClass name).run world.2
    (called.1, world.1, called.2)
  loadedAtBoot world := walker.loadedAtBoot world.2
  libraryLocation world := walker.libraryLocation world.2

end Walker

structure Ledger where
  tags : TagCounter
  notes : List Tag
  opens : Tag → Prop

def Ledger.take (ledger : Ledger) : Ledger := { ledger with tags := ledger.tags.next.2 }

def Ledger.note (ledger : Ledger) (tag : Tag) : Ledger := { ledger with notes := tag :: ledger.notes }

def Session.ledger (session : Session (List Tag × ω)) : Ledger :=
  { tags := session.census.registry.tags
    notes := session.world.1
    opens := session.census.Opens }

theorem ledger_registry (session : Session (List Tag × ω)) {registry : Registry}
    (same : registry.tags = session.census.registry.tags) :
    (session.setRegistry registry).ledger = session.ledger :=
  congrArg (Ledger.mk · session.world.1 session.census.Opens) same

namespace Registry

theorem tags_receive (registry : Registry) (now : Nat) (event : ScanEvent) :
    (registry.receive now event).tags = registry.tags := by
  cases event with
  | visited tag object =>
      cases object with
      | none => rfl
      | some object =>
          rw [receive, visit]
          cases registry.entryAt tag with
          | none => rfl
          | some entry => cases closed : entry.isComplete <;> simp [closed, replace, stray]
  | completed tag =>
      rw [receive, complete]
      cases registry.entryAt tag with
      | none => rfl
      | some entry => cases closed : entry.isComplete <;> simp [closed, replace]
  | fault tag message =>
      rw [receive, fault]
      cases registry.entryAt tag <;> rfl

theorem tags_finish (registry : Registry) (tag : Tag) : (registry.finish tag).2.tags = registry.tags := by
  rw [finish]
  cases registry.entryAt tag with
  | none => rfl
  | some entry => cases closed : entry.isComplete <;> simp [closed, remove]

theorem tags_abandon (registry : Registry) (tag : Tag) (reason : String) :
    (registry.abandon tag reason).2.tags = registry.tags := by
  rw [abandon]
  cases registry.entryAt tag <;> rfl

end Registry

namespace Query

structure Noting (custody : Custody (Session (List Tag × ω)) M) (took : Tag → M) (spent : M) : Prop where
  unmoved : ∀ session after own, after.ledger = session.ledger → custody.Allows session own after own
  takes : ∀ session after own, after.ledger = session.ledger.take →
    custody.Allows session own after (own + took session.ledger.tags.next.1)
  notes : ∀ session after tag own, after.ledger = session.ledger.note tag →
    custody.Allows session (own + took tag) after (own + spent)

variable {custody : Custody (Session (List Tag × ω)) M} {took : Tag → M} {spent : M}
  (noting : Noting custody took spent) (walker : Walker ω)

theorem noting_charges (noting : Noting custody took spent) (walker : Walker ω) :
    Charging walker.noted custody took spent where
  looks session own := noting.unmoved session session own rfl
  takes session own := noting.takes session _ own rfl
  asks := by
    intro tag change asks session own
    apply noting.notes
    cases asks <;> rfl
  visits := by
    intro change visits session own
    apply noting.unmoved
    cases visits <;> rfl
  consults session resolutions own := noting.unmoved session _ own rfl

include noting

theorem costs_register {f : Registry → α × Registry} (same : ∀ registry, (f registry).2.tags = registry.tags) :
    Costs custody (· = 0) (register f) := by
  apply costs_step
  intro session own
  exact noting.unmoved _ _ _ (ledger_registry session (same _))

theorem costs_abandon (tag : Tag) (reason : String) : Costs custody (· = 0) (abandon tag reason) := by
  apply costs_nothing (costs_register noting fun registry => registry.tags_abandon tag reason)
  intro removed
  cases removed with
  | none => exact costs_fail _ rfl
  | some report => exact costs_pure report rfl

theorem costs_conclude (tag : Tag) (outcome : Outcome WalkerError Unit) :
    Costs custody (· = 0) (conclude tag outcome) := by
  cases outcome with
  | ok done =>
      apply costs_nothing (costs_register noting fun registry => registry.tags_finish tag)
      intro finished
      cases finished with
      | ok report => exact costs_pure report rfl
      | error cause =>
          cases cause with
          | notComplete named => exact costs_abandon noting tag _
          | unknownTag named => exact costs_fail _ rfl
  | error failure => cases failure <;> exact costs_abandon noting tag _

theorem carries_served (own : M) (dialogue : Dialogue ω ScanEvent SinkReply α) :
    Activity.Carries custody (fun final _ => final = own)
      (Activity.serve Session.world Session.setWorld hear
        (dialogue.zoom Prod.snd fun inner world => ((world.1, inner) : List Tag × ω))) own := by
  induction dialogue with
  | stop result => rfl
  | act change resume ih =>
      intro session kept
      obtain ⟨still, moved⟩ := noting.unmoved session
        (session.setWorld (session.world.1, change session.world.2)) own rfl kept
      exact ⟨still, own, moved, ih session.world.2⟩
  | call event resume ih =>
      intro session kept
      have heard : (hear event session).2.ledger = session.ledger := by
        rw [hear_eq]
        exact ledger_registry session (Registry.tags_receive _ _ event)
      obtain ⟨still, moved⟩ := noting.unmoved session _ own heard kept
      exact ⟨still, own, moved, ih _⟩

theorem bears_scan (type : HeapClass) (tag : Tag) (bound : UInt32) :
    Bears custody (· = spent) (runScan walker.noted type tag bound) (took tag) := by
  apply bears_lift
  intro session kept
  have asked := noting.notes session (session.setWorld (tag :: session.world.1, session.world.2)) tag 0 rfl kept
  rw [zero_add, zero_add] at asked
  exact ⟨asked.1, spent, asked.2, carries_served noting spent _⟩

theorem costs_cardinality (type : HeapClass) (max : Int) :
    Costs custody (· = if max < 0 then 0 else spent) (cardinality walker.noted type max) := by
  rw [cardinality_eq]
  apply costs_bounded
  · intro negative
    rw [if_pos negative]
  · intro nonneg bound
    rw [if_neg (Int.not_lt.mpr nonneg)]
    apply carries_look (noting_charges noting walker)
    intro session _
    apply carries_stepped
    intro later _
    let begun := later.census.registry.begin type session.census.clock
    have taken := noting.takes later (later.setRegistry begun.2) 0 rfl
    rw [zero_add] at taken
    refine ⟨_, taken, bears_bind (bears_scan noting walker type begun.1 bound) ?_ fun own reached => reached⟩
    rintro own outcome rfl
    exact bears_free (costs_conclude noting begun.1 outcome) _

theorem costs_scan_all (types : List HeapClass) :
    Costs custody (· = types.length • spent) (scanAll walker.noted types) := by
  apply carries_look (noting_charges noting walker)
  intro session _
  let scans := types.map fun type => (cardinality walker.noted type 0).run
  have each : ∀ scan ∈ scans, Activity.Carries custody (fun own _ => own = spent) scan 0 := by
    intro scan member
    obtain ⟨type, _, rfl⟩ := List.mem_map.mp member
    exact costs_cardinality noting walker type 0
  have all : Activity.Carries custody (fun own _ => own = types.length • spent)
      (Activity.interleave session.census.turns scans) 0 := by
    refine Activity.carries_weaken ?_ (Activity.carries_each session.census.turns each)
    rintro _ _ ⟨ends, amount, rfl, _, done⟩
    rw [List.sum_eq_card_nsmul _ spent, List.length_map, amount, List.length_map]
    intro own member
    obtain ⟨ended, held, rfl⟩ := List.mem_map.mp member
    exact done ended held
  exact bears_bind (bears_lift all) (fun own outcomes reached => reached) fun own reached => reached

def rankFound (walker : Walker ω) (name : String) (rows : Nat) (withoutPrimitives : Bool) (started : Nat)
    (types : List HeapClass) : Query ω RankingReport := do
  let reports ← scanAll walker types
  let entries ← ExceptT.mk (pure ((Ranking.topMerged (reports.map (·.tally)) rows
    withoutPrimitives).mapError QueryError.ofRanking))
  let now ← look (·.census.clock)
  return {
    name := shownName name
    entries := entries
    roots := types.length
    elapsed := now - started
    faults := reports.flatMap (·.faults) }

omit noting in
theorem top_instances_eq (name : String) {rows : Nat} (positive : rows ≠ 0) (withoutPrimitives : Bool) :
    topInstances walker name rows withoutPrimitives = (do
      let started ← look (·.census.clock)
      let types ← resolveSome walker name
      rankFound walker name rows withoutPrimitives started types) := if_neg positive

theorem costs_rank_found (name : String) (rows : Nat) (withoutPrimitives : Bool) (started : Nat)
    (types : List HeapClass) :
    Costs custody (· = types.length • spent) (rankFound walker.noted name rows withoutPrimitives started types) := by
  have shown : ∀ reports : List ScanReport, Costs custody (· = 0) (do
      let entries ← ExceptT.mk (pure ((Ranking.topMerged (reports.map (·.tally)) rows
        withoutPrimitives).mapError QueryError.ofRanking))
      let now ← look (·.census.clock)
      return {
        name := shownName name
        entries := entries
        roots := types.length
        elapsed := now - started
        faults := reports.flatMap (·.faults) } : Query (List Tag × ω) RankingReport) := by
    intro reports
    apply costs_nothing (costs_given _ rfl)
    intro entries
    exact costs_value (costs_look (noting_charges noting walker) _)
  apply costs_bind (costs_scan_all noting walker types) shown fun own reached => reached
  rintro own _ reached rfl
  rw [add_zero]
  exact reached

theorem repeats_top_instances (name : String) (rows : Nat) (withoutPrimitives : Bool) :
    Costs custody (Repeats spent) (topInstances walker.noted name rows withoutPrimitives) := by
  have charging := noting_charges noting walker
  by_cases positive : rows ≠ 0
  · rw [top_instances_eq walker.noted name positive]
    apply costs_free (costs_look charging _) _ repeats_nothing
    intro started
    apply repeats_bind (costs_weaken (costs_resolve_some charging name) fun _ => repeats_search)
    intro types
    exact costs_weaken (costs_rank_found noting walker name rows withoutPrimitives started types)
      fun own reached => ⟨types.length, reached⟩
  · rw [topInstances, if_pos (not_not.mp positive)]
    exact repeats_nothing

theorem supplies_zoomed (dialogue : Dialogue ω Offer Bool (Outcome WalkerError Nat))
    (closing : Outcome WalkerError Nat → Offer) :
    Supplies custody spent (Dialogue.bind
      (dialogue.zoom Prod.snd fun inner world => ((world.1, inner) : List Tag × ω))
      fun outcome => .call (closing outcome) fun _ => .stop ()) spent := by
  induction dialogue with
  | stop result => exact ⟨rfl, fun _ => rfl⟩
  | act change resume ih =>
      intro session kept
      obtain ⟨still, moved⟩ := noting.unmoved session
        (session.setWorld (session.world.1, change session.world.2)) spent rfl kept
      exact ⟨still, spent, moved, ih session.world.2⟩
  | call offer resume ih => exact ⟨rfl, fun taken => ih taken⟩

theorem supplies_producer (type : HeapClass) (tag : Tag) (bound : UInt32) :
    Supplies custody spent (producer walker.noted type tag bound) (took tag) := by
  intro session kept
  have asked := noting.notes session (session.setWorld (tag :: session.world.1, session.world.2)) tag 0 rfl kept
  rw [zero_add, zero_add] at asked
  exact ⟨asked.1, spent, asked.2, supplies_zoomed noting _ _⟩

end Query

end HeapCensus
