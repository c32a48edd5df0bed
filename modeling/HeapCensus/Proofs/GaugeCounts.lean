import HeapCensus.Proofs.Gauges
import HeapCensus.Proofs.Streaming

set_option autoImplicit false

namespace HeapCensus

open Activity (Course)
open Dialogue (Speaks)
open Draining (Offers)

namespace Activity

variable {σ α β : Type}

theorem course_front {activity : Activity σ α} {front other rest last : List (σ × σ)} {result again : α}
    (course : Course activity front result) (second : Course activity other again)
    (same : front ++ rest = other ++ last) : front = other ∧ result = again := by
  induction course generalizing other again with
  | stop result =>
      cases second
      exact ⟨rfl, rfl⟩
  | act change resume state steps result _ ih =>
      cases second with
      | act _ _ found others _ onwards =>
          obtain ⟨head, tail⟩ := List.cons.inj same
          obtain rfl := (Prod.mk.inj head).1
          obtain ⟨rfl, rfl⟩ := ih onwards tail
          exact ⟨rfl, rfl⟩

theorem course_after {activity : Activity σ α} {next : α → Activity σ β} {front rest : List (σ × σ)} {middle : α}
    {result : β} (first : Course activity front middle)
    (course : Course (Dialogue.bind activity next) (front ++ rest) result) : Course (next middle) rest result := by
  obtain ⟨own, other, back, same, again, later⟩ := course_bind course
  obtain ⟨rfl, rfl⟩ := course_front first again same
  rwa [List.append_cancel_left same]

theorem alone_bind (activity : Activity σ α) (next : α → Activity σ β) (state : σ) :
    alone (Dialogue.bind activity next) state =
      alone activity state ++ alone (next (run activity state).1) (run activity state).2 := by
  induction activity generalizing state with
  | stop result => rfl
  | act change resume ih => exact congrArg ((state, change state) :: ·) (ih state (change state))
  | call command => exact nomatch command

end Activity

namespace Offer

theorem truthful_push {limit : Nat} {object : Option HeapObject} {reply : Bool} {more : List (Offer × Bool)}
    (truthful : Truthful (limit + 1) ((.push object, reply) :: more)) : reply = true ∧ Truthful limit more := by
  refine ⟨truthful.wanted 0 object reply rfl (Nat.succ_pos limit) rfl, ?_⟩
  constructor
  · exact fun offer told member => truthful.closes offer told (List.mem_cons_of_mem _ member)
  · exact fun place other told present => truthful.late (place + 1) other told present
  · exact fun place other told present wanted =>
      truthful.wanted (place + 1) other told present (Nat.succ_lt_succ wanted)

end Offer

namespace Draining

variable {ω α : Type} {dialogue : Dialogue ω Offer Bool α} {closes : List Offer} {result outcome : α}
  {worlds : List ω} {said : List (Offer × Bool)}

theorem spoken_closes (offers : Offers dialogue closes result) (closers : ∀ offer ∈ closes, offer.close? ≠ none)
    (spoken : Speaks dialogue worlds said (.stop outcome))
    (taken : ∀ offer reply, (offer, reply) ∈ said → offer.close? ≠ none → reply = true) :
    said.map Prod.fst = closes ∧ outcome = result := by
  induction offers generalizing worlds said with
  | stop result =>
      obtain ⟨_, rfl, same⟩ := Dialogue.speaks_stop spoken
      cases same
      exact ⟨rfl, rfl⟩
  | call offer resume rest result _ ih =>
      obtain ⟨here, others⟩ := List.forall_mem_cons.mp closers
      cases spoken with
      | call _ _ reply worlds said _ later =>
          obtain rfl := taken offer reply List.mem_cons_self here
          obtain ⟨same, ended⟩ := ih others later fun other told member => taken other told (List.mem_cons_of_mem _ member)
          exact ⟨congrArg (offer :: ·) same, ended⟩

theorem spoken_plan {slots : List (Option HeapObject)} {limit : Nat}
    (offers : Offers dialogue (slots.map .push ++ closes) result) (closers : ∀ offer ∈ closes, offer.close? ≠ none)
    (spoken : Speaks dialogue worlds said (.stop outcome)) (truthful : Offer.Truthful limit said)
    (few : slots.length ≤ limit) : said.map Prod.fst = slots.map .push ++ closes ∧ outcome = result := by
  induction slots generalizing dialogue limit worlds said with
  | nil => exact spoken_closes offers closers spoken truthful.closes
  | cons slot slots ih =>
      obtain ⟨limit, rfl⟩ := Nat.exists_eq_add_of_lt (Nat.lt_of_lt_of_le (Nat.succ_pos _) few)
      rw [Nat.zero_add] at truthful few
      cases offers with
      | call _ resume _ _ rest =>
          cases spoken with
          | call _ _ reply worlds said _ later =>
              obtain ⟨rfl, remaining⟩ := Offer.truthful_push truthful
              obtain ⟨same, ended⟩ := ih rest later remaining (Nat.le_of_succ_le_succ few)
              exact ⟨congrArg (Offer.push slot :: ·) same, ended⟩

end Draining

namespace SyntheticHeap

variable {heap world : SyntheticHeap}

/-- A heap that has the same objects and is as ready to fail. Its classes may be more. -/
structure Still (heap world : SyntheticHeap) : Prop where
  objects : world.objects = heap.objects
  failScans : world.failScans = heap.failScans

instance (heap world : SyntheticHeap) : Decidable (Still heap world) :=
  decidable_of_iff (world.objects = heap.objects ∧ world.failScans = heap.failScans)
    ⟨fun same => ⟨same.1, same.2⟩, fun still => ⟨still.objects, still.failScans⟩⟩

def population (heap : SyntheticHeap) (type : HeapClass) : Nat :=
  if type.isConcrete then Tally.occurrences type.id heap.objects else 0

theorem length_exact_still (still : Still heap world) (few : heap.objects.length < UInt32.size) (type : HeapClass) :
    (world.exact type unbounded).length = Tally.occurrences type.id heap.objects := by
  have fewer : world.objects.length < UInt32.size := still.objects ▸ few
  rw [length_exact_unbounded world type fewer, still.objects]

end SyntheticHeap

namespace Query

open SyntheticHeap (Still)

variable {heap : SyntheticHeap} {type : HeapClass} {types found : List HeapClass} {name : String} {tag : Tag}
  {steps : List (Session SyntheticHeap × Session SyntheticHeap)} {delivery : Delivery}

theorem delivery_of_plan {slots : List (Option HeapObject)} {limit : Nat} (few : slots.length ≤ limit)
    (more : List Offer) :
    deliveryOf limit (slots.map .push ++ .finish :: more) = ⟨slots, .ok slots.length⟩ := by
  have pushed : Offer.pushed (slots.map .push ++ .finish :: more) = slots := by
    rw [Offer.pushed_open (Offer.pushes_open slots), Offer.pushes_pushed]
    exact List.append_nil slots
  have closed : Offer.firstClose (slots.map .push ++ .finish :: more) = some none := by
    rw [Offer.first_close_append, Offer.pushes_open]
    rfl
  rw [deliveryOf, pushed, closed, List.take_of_length_le few]
  by_cases enough : limit ≤ slots.length
  · rw [if_pos enough, Nat.le_antisymm few enough]
  · rw [if_neg enough]

theorem hands_all {worlds : List SyntheticHeap} (hands : Hands SyntheticHeap.walker type tag unbounded worlds delivery)
    (ready : heap.failScans = false) (few : heap.objects.length < UInt32.size)
    (still : ∀ world ∈ worlds, heap.Still world) :
    (∃ amount, delivery.outcome = .ok amount) ∧ delivery.present = Tally.occurrences type.id heap.objects := by
  obtain ⟨said, outcome, spoken, truthful, rfl⟩ := hands
  obtain ⟨resume, walked, offers⟩ := SyntheticHeap.offers_enumerate type tag unbounded
  have opened : Speaks (.act SyntheticHeap.served resume) worlds said (.stop outcome) := walked ▸ spoken
  cases opened with
  | act _ _ world worlds said _ later =>
      have here := still world List.mem_cons_self
      have plan := offers world
      rw [here.failScans, ready, if_neg Bool.false_ne_true] at plan
      obtain ⟨amount, offers⟩ := plan
      let slots := (world.exact type unbounded).map some
      have wanted : slots.length ≤ unbounded.toNat := by
        rw [List.length_map]
        exact SyntheticHeap.length_exact_le world type unbounded
      obtain ⟨whole, rfl⟩ := Draining.spoken_plan offers (by simp [Offer.close?]) later truthful wanted
      rw [whole, List.append_assoc, List.singleton_append, delivery_of_plan wanted]
      refine ⟨⟨_, rfl⟩, ?_⟩
      rw [Delivery.present, List.filter_eq_self.mpr (by simp [slots]), List.length_map,
        SyntheticHeap.length_exact_still here few]

variable {ω : Type} {walker : Walker ω}

theorem moves_gone {feed : Feed ω} (gone : feed.producer = none) (amount : Nat) : feed.moves amount = .stop feed := by
  induction amount with
  | zero => rfl
  | succ amount ih =>
      have stays : feed.move = .stop feed := by rw [Feed.move, gone]
      rw [Feed.moves, stays]
      exact ih

theorem deliver_finished (tag : Tag) (limit : Nat) (turns : List Nat) :
    (Feed.finished tag : Feed ω).deliver (limit + 1) turns =
      .stop ([], { Feed.finished tag with stream := (Stream.finished tag).poll.2 }) := by
  rw [Feed.deliver, moves_gone rfl]
  rfl

theorem nothing_handed {steps : List (Session ω × Session ω)}
    (course : Course (forEachInstance walker type 0) steps delivery) (none : type.isConcrete = false) :
    delivery = ⟨[], .ok 0⟩ := by
  rcases for_each_course course with ⟨opening, feed, back, rfl, opens, empties⟩ | ⟨failure, failed, _⟩
  · obtain ⟨tag, opened⟩ := enumerate_finished rfl none opens
    obtain rfl := Except.ok.inj opened
    obtain ⟨_, taken, _, items, after, _, delivers, _, rfl⟩ := emptied_course empties
    have limit : limitOf 0 = (UInt32.size - 2) + 1 := by decide
    rw [limit, deliver_finished] at delivers
    generalize (taken.map fun step => (step.1.world, step.2.world)) = worlds at delivers
    cases delivers
    rfl
  · obtain ⟨_, opened⟩ := enumerate_finished rfl none failed
    cases opened

theorem for_each_counted (course : Course (forEachInstance SyntheticHeap.walker type 0) steps delivery)
    (ready : heap.failScans = false) (few : heap.objects.length < UInt32.size)
    (still : ∀ step ∈ steps, heap.Still step.1.world) (opens : ∀ step ∈ steps, step.1.OpensAll) :
    (∃ amount, delivery.outcome = .ok amount) ∧ delivery.present = heap.population type := by
  rw [SyntheticHeap.population]
  cases concrete : type.isConcrete with
  | true =>
      cases for_each_handed rfl concrete course with
      | opened _ hands =>
          refine hands_all hands ready few fun world member => ?_
          obtain ⟨step, within, rfl⟩ := List.mem_map.mp member
          exact still step (by simp [within])
      | @refused first second failure shut =>
          exact absurd (opens second (List.mem_cons_of_mem first List.mem_cons_self) _) shut
  | false =>
      obtain rfl := nothing_handed course concrete
      exact ⟨⟨0, rfl⟩, rfl⟩

theorem enumerated_counted {deliveries : List Delivery}
    (enumerated : Enumerated SyntheticHeap.walker types deliveries steps) (ready : heap.failScans = false)
    (few : heap.objects.length < UInt32.size) (still : ∀ step ∈ steps, heap.Still step.1.world)
    (opens : ∀ step ∈ steps, step.1.OpensAll) :
    Complete deliveries ∧ (deliveries.map Delivery.present).sum = (types.map heap.population).sum := by
  induction enumerated with
  | none => exact ⟨nofun, rfl⟩
  | next course _ ih =>
      obtain ⟨here, others⟩ := List.forall_mem_append.mp still
      obtain ⟨opened, later⟩ := List.forall_mem_append.mp opens
      obtain ⟨ended, present⟩ := for_each_counted course ready few here opened
      obtain ⟨complete, sum⟩ := ih others later
      refine ⟨List.forall_mem_cons.mpr ⟨ended, complete⟩, ?_⟩
      rw [List.map_cons, List.map_cons, List.sum_cons, List.sum_cons, present, sum]

theorem totalled_counted {outcome : Outcome QueryError Nat}
    (totalled : Totalled SyntheticHeap.walker types steps outcome) (ready : heap.failScans = false)
    (few : heap.objects.length < UInt32.size) (still : ∀ step ∈ steps, heap.Still step.1.world)
    (opens : ∀ step ∈ steps, step.1.OpensAll) : outcome = .ok (types.map heap.population).sum := by
  cases totalled with
  | complete enumerated _ => rw [(enumerated_counted enumerated ready few still opens).2]
  | cut before deliveries _ enumerated _ failed =>
      have complete := (enumerated_counted enumerated ready few still opens).1
      obtain ⟨amount, ended⟩ := complete _ (List.mem_append_right deliveries (List.mem_singleton_self _))
      cases ended.symm.trans failed

theorem count_exact_counted {outcome : Outcome QueryError UInt32}
    (course : Course (countExact SyntheticHeap.walker type 0).run steps outcome)
    (few : heap.objects.length < UInt32.size) (still : ∀ step ∈ steps, heap.Still step.1.world) :
    ∃ count : UInt32, outcome = .ok count ∧ count.toNat = heap.population type := by
  rw [SyntheticHeap.population]
  unfold countExact at course
  cases concrete : type.isConcrete with
  | true =>
      rw [concrete] at course
      obtain ⟨session, later, rfl, onwards⟩ := course_step course
      cases onwards with
      | act _ _ asked steps _ ended =>
          obtain ⟨_, rfl⟩ := course_done ended
          have found := still _ (List.mem_cons_of_mem _ List.mem_cons_self)
          refine ⟨_, rfl, (length_of_count (SyntheticHeap.length_exact_le asked.world type unbounded)).trans ?_⟩
          exact SyntheticHeap.length_exact_still found few type
  | false =>
      rw [concrete] at course
      obtain ⟨_, rfl⟩ := course_done course
      exact ⟨0, rfl, rfl⟩

theorem sum_over_counted {outcome : Outcome QueryError Nat}
    (course : Course (sumOver (countExact SyntheticHeap.walker · 0) types).run steps outcome)
    (few : heap.objects.length < UInt32.size) (still : ∀ step ∈ steps, heap.Still step.1.world) :
    outcome = .ok (types.map heap.population).sum := by
  induction types generalizing steps outcome with
  | nil => exact (course_done course).2
  | cons type types ih =>
      rcases course_query (countExact SyntheticHeap.walker type 0) course with
        ⟨front, count, back, rfl, counts, onwards⟩ | ⟨failure, failed, rfl⟩
      · obtain ⟨here, others⟩ := List.forall_mem_append.mp still
        obtain ⟨_, same, counted⟩ := count_exact_counted counts few here
        obtain rfl := Except.ok.inj same
        rcases course_query (sumOver (countExact SyntheticHeap.walker · 0) types) onwards with
          ⟨middle, sum, last, rfl, sums, done⟩ | ⟨failure, failed, rfl⟩
        · obtain rfl := Except.ok.inj (ih sums (List.forall_mem_append.mp others).1)
          obtain ⟨_, rfl⟩ := course_done done
          rw [counted, List.map_cons, List.sum_cons]
        · cases ih failed others
      · obtain ⟨_, same, _⟩ := count_exact_counted failed few still
        cases same

def Resolved (walker : Walker ω) (name : String) (steps : List (Session ω × Session ω)) (types : List HeapClass) :
    Prop :=
  ∃ resolving rest, steps = resolving ++ rest ∧ Course (resolve walker name).run resolving (.ok types)

theorem resolves_some {steps : List (Session ω × Session ω)} {α : Type} {next : List HeapClass → Query ω α}
    {outcome : Outcome QueryError α} (resolves : Resolved walker name steps types) (some : types ≠ [])
    (course : Course (resolveSome walker name >>= next).run steps outcome) :
    ∃ front back, steps = front ++ back ∧ Course (next types).run back outcome := by
  obtain ⟨resolving, rest, rfl, resolved⟩ := resolves
  refine ⟨resolving, rest, rfl, ?_⟩
  have whole : Course (Dialogue.bind (Dialogue.bind (resolve walker name).run _) _) (resolving ++ rest) outcome := course
  rw [Activity.bind_assoc] at whole
  have later := Activity.course_after resolved whole
  cases types with
  | nil => exact absurd rfl some
  | cons type types => exact later

theorem count_of_counted {outcome : Outcome QueryError NameCount}
    (course : Course (countOf SyntheticHeap.walker name).run steps outcome)
    (resolves : Resolved SyntheticHeap.walker name steps types) (some : types ≠ [])
    (few : heap.objects.length < UInt32.size) (still : ∀ step ∈ steps, heap.Still step.1.world) :
    outcome = .ok ⟨shownName name, (types.map heap.population).sum, types.length⟩ := by
  obtain ⟨front, back, rfl, counts⟩ := resolves_some resolves some course
  have others := (List.forall_mem_append.mp still).2
  rcases course_query (sumOver (countExact SyntheticHeap.walker · 0) types) counts with
    ⟨middle, sum, last, rfl, sums, done⟩ | ⟨failure, failed, rfl⟩
  · obtain rfl := Except.ok.inj (sum_over_counted sums few (List.forall_mem_append.mp others).1)
    exact (course_done done).2
  · cases sum_over_counted failed few others

theorem sampled_counted {gauge? : Option Gauge} (sampled : Sampled SyntheticHeap.walker name steps gauge?)
    (resolves : Resolved SyntheticHeap.walker name (steps.drop 1) types) (some : types ≠ [])
    (ready : heap.failScans = false) (few : heap.objects.length < UInt32.size)
    (still : ∀ step ∈ steps, heap.Still step.1.world) (opens : ∀ step ∈ steps, step.1.OpensAll) :
    ∃ gauge, gauge? = .some gauge ∧ gauge.instances = (types.map heap.population).sum ∧
      gauge.resolved = types.length := by
  obtain ⟨front, rest, split, resolved⟩ := resolves
  cases sampled with
  | unresolved opened course =>
      cases (Activity.course_front course resolved ((List.append_nil _).trans split)).2
  | unknown opened course =>
      cases (Activity.course_front course resolved ((List.append_nil _).trans split)).2
      exact absurd rfl some
  | cut opened course totalled =>
      cases (Activity.course_front course resolved split).2
      have others := (List.forall_mem_append.mp (List.forall_mem_cons.mp still).2).2
      have later := (List.forall_mem_append.mp (List.forall_mem_cons.mp opens).2).2
      cases totalled_counted totalled ready few others later
  | counted opened closed course _ totalled =>
      cases (Activity.course_front course resolved split).2
      have others := (List.forall_mem_append.mp (List.forall_mem_cons.mp still).2).2
      have later := (List.forall_mem_append.mp (List.forall_mem_cons.mp opens).2).2
      have total := totalled_counted totalled ready few (List.forall_mem_append.mp others).1
        (List.forall_mem_append.mp later).1
      exact ⟨_, rfl, Except.ok.inj total, rfl⟩

end Query

namespace Watch

open Query (Resolved)

variable {ω : Type} {watch : Watch} {samples : List (Sample ω)} {name : String} {gauge : Gauge}

def gaugeOf (watch : Watch) (name : String) : Option Gauge := watch.gauges.find? fun gauge => gauge.name = name

theorem find_put_self (gauge : Gauge) (gauges : List Gauge) :
    (putGauge gauge gauges).find? (fun other => other.name = gauge.name) = some gauge := by
  induction gauges with
  | nil => simp [putGauge]
  | cons first gauges ih =>
      by_cases before : gauge.name < first.name
      · simp [putGauge, before]
      · by_cases same : gauge.name = first.name
        · simp [putGauge, same]
        · have apart : first.name ≠ gauge.name := Ne.symm same
          simpa [putGauge, before, same, apart] using ih

theorem find_put_other (apart : gauge.name ≠ name) (gauges : List Gauge) :
    (putGauge gauge gauges).find? (fun other => other.name = name) =
      gauges.find? fun other => other.name = name := by
  induction gauges with
  | nil => simp [putGauge, apart]
  | cons first gauges ih =>
      by_cases before : gauge.name < first.name
      · simp [putGauge, before, apart]
      · by_cases same : gauge.name = first.name
        · have behind : first.name ≠ name := same ▸ apart
          simp [putGauge, same, behind]
        · rw [putGauge, if_neg before, if_neg same, List.find?_cons, List.find?_cons, ih]

theorem gauge_of_samples {kind : Gauge → Prop}
    (named : ∀ sample ∈ samples, ∀ gauge, sample.gauge? = some gauge → gauge.name = sample.name)
    (each : ∀ sample ∈ samples, sample.name = name → ∃ gauge, sample.gauge? = some gauge ∧ kind gauge)
    (present : name ∈ samples.map Sample.name ∨ ∃ gauge, watch.gaugeOf name = some gauge ∧ kind gauge) :
    ∃ gauge, ((gaugesOf samples).foldl put watch).gaugeOf name = some gauge ∧ kind gauge := by
  induction samples generalizing watch with
  | nil => exact present.resolve_left List.not_mem_nil
  | cons sample samples ih =>
      obtain ⟨called, others⟩ := List.forall_mem_cons.mp named
      obtain ⟨here, rest⟩ := List.forall_mem_cons.mp each
      by_cases same : sample.name = name
      · obtain ⟨gauge, gauged, held⟩ := here same
        have self : gauge.name = name := (called gauge gauged).trans same
        rw [gaugesOf, List.filterMap_cons_some gauged, List.foldl_cons]
        exact ih others rest (.inr ⟨gauge, self ▸ find_put_self gauge watch.gauges, held⟩)
      · have later := present.imp_left fun member => (List.mem_cons.mp member).resolve_left (Ne.symm same)
        cases gauged : sample.gauge? with
        | none =>
            rw [gaugesOf, List.filterMap_cons_none gauged]
            exact ih others rest later
        | some gauge =>
            have apart : gauge.name ≠ name := called gauge gauged ▸ same
            rw [gaugesOf, List.filterMap_cons_some gauged, List.foldl_cons]
            refine ih others rest (later.imp_right ?_)
            rintro ⟨other, kept, held⟩
            exact ⟨other, (find_put_other apart watch.gauges).trans kept, held⟩

/-- The gauge of a name says what a count of the name says that finds the same classes on the same heap,
whatever comes between its steps. -/
structure CountsAlike (heap : SyntheticHeap) (name : String) (types : List HeapClass) (watch : Watch) (gauge : Gauge) :
    Prop where
  kept : watch.gaugeOf name = some gauge
  instances : gauge.instances = (types.map heap.population).sum
  counted : ∀ found counting outcome, found.Perm types →
    Course (Query.countOf SyntheticHeap.walker name).run counting outcome →
    (∀ step ∈ counting, heap.Still step.1.world) → Resolved SyntheticHeap.walker name counting found →
      ∃ count, outcome = .ok count ∧ gauge.instances = count.count ∧ gauge.resolved = count.resolved

theorem gauges_count_alike (watch : Watch) (heap : SyntheticHeap) (ready : heap.failScans = false)
    (few : heap.objects.length < UInt32.size) {steps : List (Session SyntheticHeap × Session SyntheticHeap)}
    {answer : Except Panic Nat} {after : Watch}
    (course : Course (watch.sampleOnce SyntheticHeap.walker) steps (answer, after))
    (still : ∀ step ∈ steps, heap.Still step.1.world) (opens : ∀ step ∈ steps, step.1.OpensAll) :
    ∃ samples, Round SyntheticHeap.walker watch.settings.names steps watch (answer, after) samples ∧
      ∀ name ∈ watch.settings.names, ∀ types : List HeapClass, types ≠ [] →
        (∀ sample ∈ samples, sample.name = name →
          ∃ found, found.Perm types ∧ Resolved SyntheticHeap.walker name (sample.steps.drop 1) found) →
        ∃ gauge, CountsAlike heap name types after gauge := by
  obtain ⟨samples, round⟩ := sample_names_course course (fun step _ => calm_heap step.1.world) fun step member =>
    Session.roomy_of_opens (opens step member)
  refine ⟨samples, round, fun name watched types some resolves => ?_⟩
  let kind (gauge : Gauge) : Prop :=
    gauge.instances = (types.map heap.population).sum ∧ gauge.resolved = types.length
  have each : ∀ sample ∈ samples, sample.name = name → ∃ gauge, sample.gauge? = .some gauge ∧ kind gauge := by
    rintro sample member rfl
    obtain ⟨found, same, front⟩ := resolves sample member rfl
    have nonempty : found ≠ [] := fun none => some (List.perm_nil.mp (none ▸ same).symm)
    have within : ∀ step ∈ sample.steps, step ∈ steps := by
      intro step present
      rw [← round.steps]
      exact List.mem_flatMap_of_mem member present
    obtain ⟨gauge, gauged, instances, resolved⟩ := Query.sampled_counted (round.sampled sample member) front
      nonempty ready few (fun step present => still step (within step present))
      (fun step present => opens step (within step present))
    rw [(same.map heap.population).sum_eq] at instances
    exact ⟨gauge, gauged, instances, resolved.trans same.length_eq⟩
  have named : ∀ sample ∈ samples, ∀ gauge, sample.gauge? = .some gauge → gauge.name = sample.name :=
    fun sample member gauge gauged => sampled_named (gauged ▸ round.sampled sample member)
  have same : after = (gaugesOf samples).foldl put watch := round.after
  -- a later sample of the same name overwrites the gauge, with the same counts
  have present : name ∈ samples.map Sample.name ∨ ∃ gauge, watch.gaugeOf name = .some gauge ∧ kind gauge :=
    .inl (round.names ▸ watched)
  obtain ⟨gauge, kept, instances, resolved⟩ := gauge_of_samples named each present
  refine ⟨gauge, same ▸ kept, instances, fun found counting outcome order counts unmoved front => ?_⟩
  have nonempty : found ≠ [] := fun none => some (List.perm_nil.mp (none ▸ order).symm)
  refine ⟨_, Query.count_of_counted counts front nonempty few unmoved, ?_, ?_⟩
  · rw [instances, (order.map heap.population).sum_eq]
  · rw [resolved, order.length_eq]

theorem resolves_alone (walker : Walker ω) (name : String) {α : Type} (next : List HeapClass → Query ω α)
    {session : Session ω} {types : List HeapClass}
    (resolved : ((Query.resolve walker name).perform session).1 = .ok types) :
    Resolved walker name (Activity.alone (Query.resolve walker name >>= next).run session) types := by
  refine ⟨_, _, Activity.alone_bind (Query.resolve walker name).run _ session, ?_⟩
  have course := Activity.course_alone (Query.resolve walker name).run session
  rwa [show (Activity.run (Query.resolve walker name).run session).1 = .ok types from resolved] at course

theorem resolves_append {walker : Walker ω} {types : List HeapClass} {steps : List (Session ω × Session ω)}
    (resolves : Resolved walker name steps types) (more : List (Session ω × Session ω)) :
    Resolved walker name (steps ++ more) types := by
  obtain ⟨resolving, rest, rfl, resolved⟩ := resolves
  exact ⟨resolving, rest ++ more, List.append_assoc _ _ _, resolved⟩

theorem call_resolves (walker : Walker ω) (watch : Watch) (session : Session ω) {names : List String}
    {types : List HeapClass} (watched : watch.settings.names = name :: names)
    (resolved : ((Query.resolve walker name).perform session).1 = .ok types) :
    Resolved walker name ((Call.alone walker watch session).steps.drop 1) types := by
  obtain ⟨next, more, sampling⟩ : ∃ (next : List HeapClass → Query ω Gauge) (more : List (Session ω × Session ω)),
      (Call.alone walker watch session).steps.drop 1 =
        Activity.alone (Query.resolve walker name >>= next).run session ++ more := by
    rw [Call.alone, sampleOnce, watched]
    exact ⟨_, _, congrArg (List.drop 1) (Activity.alone_bind (sampleName walker name).run _ session)⟩
  rw [sampling]
  exact resolves_append (resolves_alone walker name next resolved) more

theorem count_resolves (walker : Walker ω) {session : Session ω} {types : List HeapClass}
    (resolved : ((Query.resolve walker name).perform session).1 = .ok types) :
    Resolved walker name (Activity.alone (Query.countOf walker name).run session) types := by
  obtain ⟨next, more, counting⟩ :
      ∃ (next : List HeapClass → Query ω (List HeapClass)) (more : List (Session ω × Session ω)),
        Activity.alone (Query.countOf walker name).run session =
          Activity.alone (Query.resolve walker name >>= next).run session ++ more :=
    ⟨_, _, Activity.alone_bind (Query.resolveSome walker name).run _ session⟩
  rw [counting]
  exact resolves_append (resolves_alone walker name next resolved) more

def mixed : SyntheticHeap :=
  let base := SyntheticHeap.new.defineType "Base" .concrete [] none
  let first := (base.2.allocateMany base.1 2).2.newLoader
  let middle := first.2.defineType "Base" .interface [] (some first.1)
  let second := middle.2.newLoader
  let last := second.2.defineType "Base" .concrete [] (some second.1)
  (last.2.allocate last.1).2

def mixedTypes : List HeapClass :=
  [.plain ⟨12⟩ "Base" .concrete none, .plain ⟨13⟩ "Base" .interface (some ⟨3⟩),
    .plain ⟨14⟩ "Base" .concrete (some ⟨4⟩)]

def counting (capacity : Nat) (machine : Machine) : Session SyntheticHeap :=
  ⟨Query.buffered capacity machine, mixed⟩

def single : WatchSettings := { WatchSettings.standard with names := ["Base"] }

def mixedCall (session : Session SyntheticHeap) : Call SyntheticHeap :=
  .alone SyntheticHeap.walker (new single) session

def mixedTold (session : Session SyntheticHeap) : Except Panic Nat × List Gauge × Bool :=
  let call := mixedCall session
  (call.answer, call.after.gauges, call.steps.all fun step => mixed.Still step.1.world)

set_option maxRecDepth 20000 in
theorem mixed_told : mixedTold (counting 1 .ample) = (.ok 1, [⟨"Base", 3, 3, 0, 0⟩], true) := by cbv

set_option maxRecDepth 20000 in
theorem mixed_machines :
    (mixedCall (counting 1 .ample)).steps.map (·.1.census.machine) = List.replicate 20 .ample := by cbv

set_option maxRecDepth 20000 in
theorem mixed_vast_told :
    mixedTold (counting (2 ^ 58) (.cramped (2 ^ 58))) = (.error .noRoom, [], true) := by cbv

set_option maxRecDepth 20000 in
theorem mixed_resolved (capacity : Nat) (machine : Machine) :
    ((Query.resolve SyntheticHeap.walker "Base").perform (counting capacity machine)).1 = .ok mixedTypes := by
  cbv

set_option maxRecDepth 20000 in
theorem mixed_counted (capacity : Nat) (machine : Machine) :
    (Activity.run (Query.countOf SyntheticHeap.walker "Base").run (counting capacity machine)).1 =
      .ok ⟨"Base", 3, 3⟩ := by
  cbv

set_option maxRecDepth 20000 in
theorem mixed_count_still (capacity : Nat) (machine : Machine) :
    ∀ step ∈ Activity.alone (Query.countOf SyntheticHeap.walker "Base").run (counting capacity machine),
      mixed.Still step.1.world := by
  have still : ((Activity.alone (Query.countOf SyntheticHeap.walker "Base").run (counting capacity machine)).all
      fun step => mixed.Still step.1.world) = true := by
    cbv
  exact fun step member => of_decide_eq_true (List.all_eq_true.mp still step member)

theorem mixed_still {session : Session SyntheticHeap} {answer : Except Panic Nat} {gauges : List Gauge}
    (told : mixedTold session = (answer, gauges, true)) : ∀ step ∈ (mixedCall session).steps, mixed.Still step.1.world := by
  have still : ((mixedCall session).steps.all fun step => mixed.Still step.1.world) = true := congrArg (·.2.2) told
  exact fun step member => of_decide_eq_true (List.all_eq_true.mp still step member)

theorem mixed_opens : ∀ step ∈ (mixedCall (counting 1 .ample)).steps, step.1.OpensAll := by
  intro step member tag
  have within := List.mem_map_of_mem (f := (·.1.census.machine)) member
  rw [mixed_machines] at within
  exact Census.opens_ample (List.eq_of_mem_replicate within)

theorem mixed_counts_alike :
    let call := mixedCall (counting 1 .ample)
    mixed.failScans = false ∧ mixed.objects.length < UInt32.size ∧
      Course ((new single).sampleOnce SyntheticHeap.walker) call.steps (call.answer, call.after) ∧
      (∀ step ∈ call.steps, mixed.Still step.1.world) ∧ (∀ step ∈ call.steps, step.1.OpensAll) ∧
      CountsAlike mixed "Base" mixedTypes call.after ⟨"Base", 3, 3, 0, 0⟩ := by
  intro call
  have course := Activity.course_alone ((new single).sampleOnce SyntheticHeap.walker) (counting 1 .ample)
  have still := mixed_still mixed_told
  have few : mixed.objects.length < UInt32.size := by decide
  obtain ⟨samples, round, alike⟩ := gauges_count_alike (new single) mixed rfl few course still mixed_opens
  have resolves : ∀ sample ∈ samples, sample.name = "Base" →
      ∃ found, found.Perm mixedTypes ∧ Resolved SyntheticHeap.walker "Base" (sample.steps.drop 1) found := by
    intro sample member _
    obtain ⟨only, rfl, _⟩ := List.map_eq_singleton_iff.mp round.names
    obtain rfl := List.mem_singleton.mp member
    have whole : sample.steps = call.steps := (List.append_nil _).symm.trans round.steps
    rw [whole]
    exact ⟨mixedTypes, .refl _, call_resolves SyntheticHeap.walker _ (counting 1 .ample) rfl (mixed_resolved 1 _)⟩
  obtain ⟨gauge, counts⟩ := alike "Base" List.mem_cons_self mixedTypes (List.cons_ne_nil _ _) resolves
  have gauges : call.after.gauges = [⟨"Base", 3, 3, 0, 0⟩] := congrArg (·.2.1) mixed_told
  have shown : call.after.gaugeOf "Base" = some ⟨"Base", 3, 3, 0, 0⟩ := by
    rw [gaugeOf, gauges]
    rfl
  obtain rfl := Option.some.inj (counts.kept.symm.trans shown)
  exact ⟨rfl, few, course, still, mixed_opens, counts⟩

/-- The machine has no room for a stream, and the call keeps no gauge. The count needs no stream. -/
theorem vast_call_keeps_no_gauge :
    let session := counting (2 ^ 58) (.cramped (2 ^ 58))
    let call := mixedCall session
    let counts := Activity.alone (Query.countOf SyntheticHeap.walker "Base").run session
    mixed.failScans = false ∧ mixed.objects.length < UInt32.size ∧ mixedTypes ≠ [] ∧
      Course ((new single).sampleOnce SyntheticHeap.walker) call.steps (call.answer, call.after) ∧
      (∀ step ∈ call.steps, mixed.Still step.1.world) ∧
      Resolved SyntheticHeap.walker "Base" (call.steps.drop 1) mixedTypes ∧
      Course (Query.countOf SyntheticHeap.walker "Base").run counts (.ok ⟨"Base", 3, 3⟩) ∧
      (∀ step ∈ counts, mixed.Still step.1.world) ∧ Resolved SyntheticHeap.walker "Base" counts mixedTypes ∧
      call.answer = .error .noRoom ∧ ∀ gauge, ¬ CountsAlike mixed "Base" mixedTypes call.after gauge := by
  intro session call counts
  have counted := Activity.course_alone (Query.countOf SyntheticHeap.walker "Base").run session
  rw [mixed_counted] at counted
  refine ⟨rfl, by decide, List.cons_ne_nil _ _, Activity.course_alone _ session, mixed_still mixed_vast_told, ?_,
    counted, mixed_count_still _ _, ?_, congrArg (·.1) mixed_vast_told, ?_⟩
  · exact call_resolves SyntheticHeap.walker _ session rfl (mixed_resolved _ _)
  · exact count_resolves SyntheticHeap.walker (mixed_resolved _ _)
  · intro gauge alike
    have gauges : call.after.gauges = [] := congrArg (·.2.1) mixed_vast_told
    have kept := alike.kept
    rw [gaugeOf, gauges] at kept
    cases kept

end Watch

end HeapCensus
