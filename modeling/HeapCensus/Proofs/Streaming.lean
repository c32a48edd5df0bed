import HeapCensus.Proofs.Counting
import HeapCensus.Proofs.Draining

set_option autoImplicit false

namespace HeapCensus

open Draining (Offers)

namespace SyntheticHeap

/-- A heap that keeps its objects and its readiness to fail. -/
structure Steady (heap other : SyntheticHeap) : Prop where
  alike : Alike heap other
  failScans : other.failScans = heap.failScans

def enumerationError (tag : Tag) : WalkerError :=
  .fault ("Injected failure in enumeration " ++ tag.render)

def closes (heap : SyntheticHeap) (tag : Tag) : List Offer :=
  if heap.failScans then [.fail (enumerationError tag).message] else [.finish, .finish]

def enumerationFault (heap : SyntheticHeap) (tag : Tag) : Option String :=
  if heap.failScans then some (enumerationError tag).message else none

theorem first_close (heap : SyntheticHeap) (tag : Tag) :
    ((heap.closes tag).filterMap Offer.close?).head? = some (heap.enumerationFault tag) := by
  by_cases fails : heap.failScans = true <;> simp [closes, enumerationFault, fails, Offer.close?]

theorem closers (heap : SyntheticHeap) (tag : Tag) :
    ∀ offer ∈ heap.closes tag, ∃ fault, offer.close? = some fault := by
  intro offer member
  by_cases fails : heap.failScans = true
  · rw [closes, if_pos fails, List.mem_singleton] at member
    exact ⟨some (enumerationError tag).message, congrArg Offer.close? member⟩
  · have finish : offer = .finish := by simpa [closes, fails] using member
    exact ⟨none, congrArg Offer.close? finish⟩

theorem length_closes_le (heap : SyntheticHeap) (tag : Tag) : (heap.closes tag).length ≤ 2 := by
  by_cases fails : heap.failScans = true <;> simp [closes, fails]

theorem offers_ok {ω α β : Type} {part : Offering ω α} {next : α → Offering ω β} {front back : List Offer}
    {value : α} {result : Outcome WalkerError β} (first : Offers part.run front (.ok value))
    (later : Offers (next value).run back result) : Offers (part >>= next).run (front ++ back) result :=
  Draining.offers_bind first later

theorem offers_push_all (pushed : Nat) (objects : List HeapObject) :
    ∃ amount, Offers (pushAll pushed objects).run ((objects.map some).map .push) (.ok (amount, true)) := by
  induction objects generalizing pushed with
  | nil => exact ⟨pushed, .stop _⟩
  | cons object objects ih =>
      obtain ⟨amount, offers⟩ := ih (pushed + 1)
      exact ⟨amount, .call (.push (some object)) _ _ _ offers⟩

theorem offers_enumerate (type : HeapClass) (tag : Tag) (bound : UInt32) :
    ∃ resume, (enumerate type tag bound).run = .act served resume ∧
      ∀ heap : SyntheticHeap,
        if heap.failScans then
          Offers (resume heap) (((heap.exact type bound).map some).map .push ++ [])
            (.error (.error (enumerationError tag)))
        else ∃ amount, Offers (resume heap) (((heap.exact type bound).map some).map .push ++ [.finish]) (.ok amount) := by
  refine ⟨_, rfl, fun heap => ?_⟩
  obtain ⟨amount, pushes⟩ := offers_push_all 0 (heap.exact type bound)
  by_cases fails : heap.failScans = true
  · rw [if_pos fails]
    refine offers_ok pushes ?_
    simp only [Bool.not_true, Bool.false_eq_true, if_false, if_pos fails]
    exact .stop _
  · rw [if_neg fails]
    refine ⟨amount, offers_ok pushes ?_⟩
    simp only [Bool.not_true, Bool.false_eq_true, if_false, if_neg fails]
    exact .call .finish _ _ _ (.stop _)

theorem offers_producer (type : HeapClass) (tag : Tag) (bound : UInt32) :
    ∃ resume, Query.producer walker type tag bound = .act served resume ∧
      ∀ heap : SyntheticHeap,
        Offers (resume heap) (((heap.exact type bound).map some).map .push ++ heap.closes tag) () := by
  obtain ⟨resume, walked, offers⟩ := offers_enumerate type tag bound
  refine ⟨_, congrArg (Dialogue.bind · _) walked, fun heap => ?_⟩
  have walk := offers heap
  by_cases fails : heap.failScans = true
  · rw [if_pos fails, List.append_nil] at walk
    rw [closes, if_pos fails]
    exact Draining.offers_bind walk (.call _ _ _ _ (.stop _))
  · rw [if_neg fails] at walk
    obtain ⟨amount, offers⟩ := walk
    rw [closes, if_neg fails, ← List.singleton_append, ← List.append_assoc]
    exact Draining.offers_bind offers (.call _ _ _ _ (.stop _))

theorem steady_refl (heap : SyntheticHeap) : Steady heap heap := ⟨⟨rfl, rfl⟩, rfl⟩

theorem steady_served {heap other : SyntheticHeap} (steady : Steady heap other) : Steady heap other.served :=
  ⟨⟨steady.alike.objects, steady.alike.supertypes⟩, steady.failScans⟩

end SyntheticHeap

namespace Query

open Draining (Allowed Drains Fair)
open SyntheticHeap (Alike Steady)

variable {session : Session SyntheticHeap} {type : HeapClass} {max : Int} {bound : UInt32}

/-- A feed that is drained while the heap is steady, whatever the turns. -/
structure Streams (heap : SyntheticHeap) (listed : List HeapObject) (fault : Option String)
    (feed : Feed SyntheticHeap) (world : SyntheticHeap) : Prop where
  drains : ∀ turns, (∀ turn ∈ turns, Allowed (Steady heap) turn) →
    Drains (listed.map some) fault ((Draining.start feed world).run turns)
  ends : ∀ rounds, Fair rounds → (∀ turn ∈ rounds.flatten, Allowed (Steady heap) turn) →
    2 * listed.length + 8 < rounds.length → .ended ∈ ((Draining.start feed world).run rounds.flatten).told

def StreamsAsListed (session : Session SyntheticHeap) (type : HeapClass) (max : Int) : Prop :=
  ∃ listed,
    (∀ other, Alike session.world other.world → ∃ after,
      (instancesOf SyntheticHeap.walker type max).perform other = (.ok listed, after) ∧
        Alike session.world after.world) ∧
    ∃ feed after, (enumerate SyntheticHeap.walker type max).perform session = (.ok feed, after) ∧
      Streams session.world listed
        (if type.isConcrete then session.world.enumerationFault feed.stream.tag else none) feed after.world

theorem enumerate_concrete {ω : Type} {walker : Walker ω} {session : Session ω}
    (normalized : normalizeBound max = .ok bound) (concrete : type.isConcrete = true)
    (opens : session.census.Opens session.census.registry.takeTag.1) :
    (enumerate walker type max).perform session =
      (.ok (Feed.start session.census.registry.takeTag.1 session.census.settings.streamCapacity
        (producer walker type session.census.registry.takeTag.1 bound)),
        session.setRegistry session.census.registry.takeTag.2) := by
  have opened : (session.setRegistry session.census.registry.takeTag.2).census.openStream
      session.census.registry.takeTag.1 = _ := Census.open_stream_opens ⟨opens.room, opens.thread⟩
  rw [enumerate, accept_bound normalized, takeTag, perform_ok (perform_register _ session), concrete]
  refine (perform_ok (perform_step _ _)).trans ?_
  dsimp only
  rw [opened]
  rfl

theorem enumerate_nothing (normalized : normalizeBound max = .ok bound) (concrete : type.isConcrete = false) :
    (enumerate SyntheticHeap.walker type max).perform session =
      (.ok (Feed.finished session.census.registry.takeTag.1),
        session.setRegistry session.census.registry.takeTag.2) := by
  rw [enumerate, accept_bound normalized, takeTag, perform_ok (perform_register _ session), concrete]
  rfl

theorem instances_of_nothing (normalized : normalizeBound max = .ok bound) (concrete : type.isConcrete = false) :
    (instancesOf SyntheticHeap.walker type max).perform session = (.ok [], session) := by
  rw [instancesOf, accept_bound normalized, concrete]
  rfl

theorem underway_streams {heap world : SyntheticHeap} {listed : List HeapObject} {fault : Option String}
    {closes : List Offer} {past : Exchange.History} {remaining : Nat} {tag : Tag} {feed : Feed SyntheticHeap}
    (underway : Draining.Underway (Steady heap) (listed.map some) closes tag past remaining
      (Draining.start feed world))
    (closers : ∀ offer ∈ closes, ∃ fault, offer.close? = some fault)
    (first : (closes.filterMap Offer.close?).head? = some fault)
    (enough : Draining.work remaining feed ≤ 2 * listed.length + 8) : Streams heap listed fault feed world := by
  have closed : closes ≠ [] := by
    rintro rfl
    cases first
  constructor
  · intro turns allowed
    obtain ⟨_, _, later⟩ := Draining.run_underway turns underway closers closed allowed
    exact Draining.underway_drains later first
  · intro rounds fair allowed many
    exact Draining.rounds_end rounds underway closers closed allowed fair (Nat.lt_of_le_of_lt enough many)

theorem streams_as_listed (session : Session SyntheticHeap) (type : HeapClass) (max : Int) (nonneg : 0 ≤ max)
    (opens : type.isConcrete = true → session.census.Opens session.census.registry.takeTag.1) :
    StreamsAsListed session type max := by
  obtain ⟨bound, normalized⟩ := normalize_bound_ok nonneg
  have steady := SyntheticHeap.steady_refl session.world
  cases concrete : type.isConcrete with
  | true =>
      refine ⟨session.world.exact type bound, ?_, _, _, enumerate_concrete normalized concrete (opens concrete), ?_⟩
      · exact fun other alike => instances_of_performed normalized concrete alike
      · let tag := session.census.registry.takeTag.1
        obtain ⟨resume, opened, offers⟩ := SyntheticHeap.offers_producer type tag bound
        have plan : ∀ world, Steady session.world world → Steady session.world world.served ∧
            Offers (resume world) (((session.world.exact type bound).map some).map .push ++ session.world.closes tag) ()
            := by
          intro world steady
          refine ⟨SyntheticHeap.steady_served steady, ?_⟩
          have same := offers world
          rwa [SyntheticHeap.exact_alike steady.alike, SyntheticHeap.closes, steady.failScans] at same
        rw [concrete, if_pos rfl, opened]
        refine underway_streams (Draining.start_underway tag _ steady plan) (SyntheticHeap.closers _ tag)
          (SyntheticHeap.first_close _ tag) ?_
        have few := SyntheticHeap.length_closes_le session.world tag
        change 2 * (((session.world.exact type bound).map some).length + _ + 2) + 0 ≤ _
        rw [List.length_map]
        omega
  | false =>
      refine ⟨[], ?_, _, _, enumerate_nothing normalized concrete, ?_⟩
      · exact fun other alike => ⟨other, instances_of_nothing normalized concrete, alike⟩
      · rw [concrete, if_neg Bool.false_ne_true]
        refine underway_streams (Draining.finished_underway _ steady) ?_ rfl (Nat.le_add_left 1 7)
        intro offer member
        exact ⟨none, congrArg Offer.close? (List.mem_singleton.mp member)⟩

def streamed : HeapClass := .plain ⟨12⟩ "Base" .concrete none

def failing (capacity : Nat) (machine : Machine) : Session SyntheticHeap :=
  let census := Census.idle (Latency.empty 1 Nat.one_pos)
  let settings := { census.settings with streamCapacity := capacity }
  { census := { census with settings := settings, machine := machine }
    world := { ((SyntheticHeap.new.defineClass "Base" none).2.allocateMany streamed 2).2 with failScans := true } }

theorem failing_streams_as_listed :
    let session := failing 0 Machine.ample
    (0 : Int) ≤ 0 ∧ streamed.isConcrete = true ∧ session.census.Opens session.census.registry.takeTag.1 ∧
      StreamsAsListed session streamed 0 ∧
      ((instancesOf SyntheticHeap.walker streamed 0).perform session).1 = .ok session.world.objects := by
  intro session
  have opens : session.census.Opens session.census.registry.takeTag.1 := Census.opens_ample rfl
  exact ⟨Int.le_refl 0, rfl, opens, streams_as_listed session streamed 0 (Int.le_refl 0) fun _ => opens, by cbv⟩

theorem vast_stream_not_as_listed :
    (0 : Int) ≤ 0 ∧ ¬ StreamsAsListed (failing (2 ^ 58) (Machine.cramped (2 ^ 58))) streamed 0 := by
  refine ⟨Int.le_refl 0, ?_⟩
  rintro ⟨listed, _, feed, after, performed, _⟩
  have panicked : ((enumerate SyntheticHeap.walker streamed 0).perform
      (failing (2 ^ 58) (Machine.cramped (2 ^ 58)))).1.isOk = false := by cbv
  rw [performed] at panicked
  cases panicked

end Query

end HeapCensus
