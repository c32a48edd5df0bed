import HeapCensus.Feed
import HeapCensus.Proofs.Delivery

set_option autoImplicit false

namespace HeapCensus

inductive Turn (ω : Type) where
  -- One move of the producer.
  | produce
  | poll
  -- What others leave behind.
  | elsewhere (world : ω)

structure Draining (ω : Type) where
  feed : Feed ω
  world : ω
  -- What the polls were told, oldest first.
  told : List Polled

namespace Exchange

theorem capacity_effect {stream after : Stream} {event : Event} (effect : Effect stream event after) :
    after.capacity = stream.capacity := by
  cases effect <;> rfl

theorem consumer_effect {stream after : Stream} {event : Event} (effect : Effect stream event after)
    (stays : event ≠ .consumerLeft) : after.consumerPresent = stream.consumerPresent := by
  cases effect with
  | consumerLeft => exact absurd rfl stays
  | pushed | refused | closed | closedUnheard | closedAgain | producerLeft | asked | answered | took | finished
  | stopped | foundNothing | spent => rfl

theorem present_effect {stream after : Stream} {event : Event} (effect : Effect stream event after)
    (stays : event ≠ .producerLeft) : after.producerPresent = stream.producerPresent := by
  cases effect with
  | producerLeft => exact absurd rfl stays
  | pushed | refused | closed | closedUnheard | closedAgain | consumerLeft | asked | answered | took | finished
  | stopped | foundNothing | spent => rfl

theorem offered_queue {stream after : Stream} {offer : Offer} {reply : Bool} {slots : List Slot}
    (effect : Effect stream (.offered offer reply slots) after) :
    after.queue.length ≤ stream.queue.length + 1 := by
  cases effect with
  | pushed | closed => exact Nat.le_of_eq List.length_append
  | refused | closedUnheard | closedAgain => exact Nat.le_succ _

theorem offered_closing {past : History} {stream after : Stream} {offer : Offer} {reply : Bool} {slots : List Slot}
    {fault : Option String} (closes : offer.close? = some fault)
    (effect : Effect stream (.offered offer reply slots) after) :
    reply = true ∧ accepted (.offered offer reply slots :: past) = accepted past := by
  have told : reply = true := by
    cases effect with
    | pushed | refused => cases closes
    | closed | closedUnheard | closedAgain => rfl
  refine ⟨told, ?_⟩
  rw [accepted_cons, accepted_closing closes, List.append_nil]

theorem offered_push {past : History} {stream after : Stream} {object : Option HeapObject} {reply : Bool}
    {slots : List Slot} (opened : stream.closed = false) (consumer : stream.consumerPresent = true)
    (effect : Effect stream (.offered (.push object) reply slots) after) :
    reply = true ∧ accepted (.offered (.push object) reply slots :: past) = accepted past ++ [object] ∧
      closing (.offered (.push object) reply slots :: past) = closing past := by
  have told : reply = true := by
    cases effect with
    | pushed => rfl
    | refused _ _ unheard =>
        cases unheard with
        | inl closed => exact absurd (opened.symm.trans closed) Bool.false_ne_true
        | inr left => exact absurd (left.symm.trans consumer) Bool.false_ne_true
    | closed fault closes | closedUnheard fault closes | closedAgain fault closes => rfl
  subst told
  exact ⟨rfl, accepted_cons _ past, closing_kept rfl⟩

end Exchange

namespace Draining

open Exchange (History Event Effect Follows accepted handed closing)

variable {ω α β : Type}

def turn (draining : Draining ω) : Turn ω → Draining ω
  | .produce =>
      let moved := Activity.run draining.feed.move draining.world
      { draining with feed := moved.1, world := moved.2 }
  | .poll =>
      let polled := draining.feed.stream.poll
      { draining with
        feed := { draining.feed with stream := polled.2 }
        told := draining.told ++ [polled.1] }
  | .elsewhere world => { draining with world := world }

def run (draining : Draining ω) (turns : List (Turn ω)) : Draining ω := turns.foldl turn draining

def start (feed : Feed ω) (world : ω) : Draining ω := ⟨feed, world, []⟩

def given (draining : Draining ω) : List (Option HeapObject) := draining.told.filterMap Polled.item?

def Heard (draining : Draining ω) : Prop :=
  ∃ before ends, draining.told = before ++ List.replicate ends .ended ∧ .ended ∉ before ∧
    (draining.feed.stream.ended = true ↔ 0 < ends)

/-- What a producer offers from here on when every offer is taken, and what it gives at last. -/
inductive Offers : Dialogue ω Offer Bool α → List Offer → α → Prop
  | stop (result : α) : Offers (.stop result) [] result
  | call (offer : Offer) (resume : Bool → Dialogue ω Offer Bool α) (rest : List Offer) (result : α) :
      Offers (resume true) rest result → Offers (.call offer resume) (offer :: rest) result

theorem offers_bind {part : Dialogue ω Offer Bool α} {next : α → Dialogue ω Offer Bool β} {value : α}
    {result : β} {front back : List Offer} (first : Offers part front value)
    (later : Offers (next value) back result) : Offers (Dialogue.bind part next) (front ++ back) result := by
  induction first with
  | stop value => exact later
  | call offer resume rest value _ ih => exact .call offer _ _ result (ih later)

inductive Stage (steady : ω → Prop) (items : List (Option HeapObject)) (closes : List Offer) :
    Option (Producer ω) → List (Option HeapObject) → Option (Option String) → Nat → Prop
  | initial (change : ω → ω) (resume : ω → Producer ω) :
      (∀ world, steady world → steady (change world) ∧ Offers (resume world) (items.map .push ++ closes) ()) →
      Stage steady items closes (some (.act change resume)) [] none (items.length + closes.length + 2)
  | pushing (producer : Producer ω) (taken pending : List (Option HeapObject)) :
      taken ++ pending = items → Offers producer (pending.map .push ++ closes) () →
      Stage steady items closes (some producer) taken none (pending.length + closes.length + 1)
  | ending (producer : Producer ω) (made rest : List Offer) :
      made ++ rest = closes → Offers producer rest () →
      Stage steady items closes (some producer) items (made.filterMap Offer.close?).head? (rest.length + 1)
  | gone : Stage steady items closes none items (closes.filterMap Offer.close?).head? 0

structure Underway (steady : ω → Prop) (items : List (Option HeapObject)) (closes : List Offer) (tag : Tag)
    (past : History) (remaining : Nat) (draining : Draining ω) : Prop where
  world : steady draining.world
  room : 0 < draining.feed.stream.capacity
  consumer : draining.feed.stream.consumerPresent = true
  present : draining.feed.stream.producerPresent = draining.feed.producer.isSome
  follows : Follows tag past draining.feed.stream
  stage : Stage steady items closes draining.feed.producer (accepted past) (closing past) remaining
  given : draining.given = handed past
  ending : ∃ before ends, draining.told = before ++ List.replicate ends .ended ∧ .ended ∉ before ∧
    (draining.feed.stream.ended = true ↔ 0 < ends)

def work (remaining : Nat) (feed : Feed ω) : Nat := 2 * remaining + feed.stream.queue.length

def Rests (feed : Feed ω) : Turn ω → Prop
  | .produce => feed.producer = none ∨ feed.stream.queue ≠ []
  | .poll => feed.stream.ended = true ∨ (feed.stream.queue = [] ∧ feed.producer ≠ none)
  | .elsewhere _ => True

section

variable {steady : ω → Prop} {items : List (Option HeapObject)} {closes : List Offer} {tag : Tag}
  {past : History} {remaining : Nat} {draining : Draining ω}

def Advances (steady : ω → Prop) (items : List (Option HeapObject)) (closes : List Offer) (tag : Tag)
    (remaining : Nat) (draining : Draining ω) (turn : Turn ω) : Prop :=
  ∃ past fewer, Underway steady items closes tag past fewer (draining.turn turn) ∧
    (work fewer (draining.turn turn).feed < work remaining draining.feed ∨
      (fewer = remaining ∧ (draining.turn turn).feed = draining.feed ∧ Rests draining.feed turn))

theorem underway_moved {event : Event} {stream : Stream} {producer : Option (Producer ω)} {fewer : Nat}
    (underway : Underway steady items closes tag past remaining draining)
    (effect : Effect draining.feed.stream event stream) (quiet : event.handed = [])
    (unheard : event ≠ .polled .ended) (stays : event ≠ .consumerLeft)
    (present : stream.producerPresent = producer.isSome)
    (stage : Stage steady items closes producer (accepted (event :: past)) (closing (event :: past)) fewer) :
    Underway steady items closes tag (event :: past) fewer
      ⟨⟨stream, producer⟩, draining.world, draining.told⟩ where
  world := underway.world
  room := (Exchange.capacity_effect effect).symm ▸ underway.room
  consumer := (Exchange.consumer_effect effect stays).trans underway.consumer
  present := present
  follows := Exchange.follows_effect underway.follows effect
  stage := stage
  given := by
    rw [Exchange.handed_cons, quiet, List.append_nil]
    exact underway.given
  ending := by
    obtain ⟨before, ends, told, running, ended⟩ := underway.ending
    refine ⟨before, ends, told, running, ?_⟩
    rw [Exchange.ended_effect effect, or_iff_right unheard]
    exact ended

theorem accept_waits {stream : Stream} {offer : Offer} (room : 0 < stream.capacity)
    (waits : stream.accept offer = none) : stream.queue ≠ [] := by
  rintro empty
  have open_room : stream.isFull = false := by
    rw [Stream.isFull, empty, List.length_nil, decide_eq_false (Nat.not_le_of_lt room), Bool.and_false]
  have closes : ∀ fault, stream.close fault ≠ none := by
    intro fault
    by_cases closed : stream.closed = true
    · rw [Stream.close_closed closed]
      exact Option.some_ne_none _
    · rw [Stream.close_open (eq_false_of_ne_true closed) open_room]
      exact Option.some_ne_none _
  cases offer with
  | push object =>
      by_cases closed : stream.closed = true
      · cases (Stream.push_closed closed object).symm.trans waits
      · cases (Stream.push_open (eq_false_of_ne_true closed) open_room object).symm.trans waits
  | finish => exact closes none (Option.map_eq_none_iff.mp waits)
  | fail message => exact closes (some message) (Option.map_eq_none_iff.mp waits)

theorem produce_offered {offer : Offer} {resume : Bool → Producer ω} {fewer : Nat}
    (underway : Underway steady items closes tag past remaining draining)
    (held : draining.feed.producer = some (.call offer resume)) (less : fewer < remaining)
    (stage : ∀ reply slots after, Effect draining.feed.stream (.offered offer reply slots) after →
      Stage steady items closes (some (resume reply)) (accepted (.offered offer reply slots :: past))
        (closing (.offered offer reply slots :: past)) fewer) :
    Advances steady items closes tag remaining draining .produce := by
  have present : draining.feed.stream.producerPresent = true := by
    rw [underway.present, held]
    rfl
  cases accept : draining.feed.stream.accept offer with
  | none =>
      have waits : draining.turn .produce = draining := by
        simp only [turn, Feed.move, held, accept, Activity.run]
      refine ⟨past, remaining, waits.symm ▸ underway, .inr ⟨rfl, congrArg feed waits, .inr ?_⟩⟩
      exact accept_waits underway.room accept
  | some accepted =>
      obtain ⟨reply, after⟩ := accepted
      have effect := Exchange.accept_effect present accept
      have moved : draining.turn .produce = ⟨⟨after, some (resume reply)⟩, draining.world, draining.told⟩ := by
        simp only [turn, Feed.move, held, accept, Activity.run]
      have stays : after.producerPresent = (some (resume reply)).isSome :=
        (Exchange.present_effect effect nofun).trans present
      have further := underway_moved underway effect rfl nofun nofun stays (stage reply _ after effect)
      refine ⟨_, fewer, moved.symm ▸ further, .inl ?_⟩
      have longer := Exchange.offered_queue effect
      rw [moved, work, work]
      change 2 * fewer + after.queue.length < _
      omega

theorem produce_ending {producer : Producer ω} {made rest : List Offer}
    (underway : Underway steady items closes tag past (rest.length + 1) draining)
    (closers : ∀ offer ∈ closes, ∃ fault, offer.close? = some fault)
    (held : draining.feed.producer = some producer) (whole : made ++ rest = closes)
    (offers : Offers producer rest ()) (took : accepted past = items)
    (first : closing past = (made.filterMap Offer.close?).head?) :
    Advances steady items closes tag (rest.length + 1) draining .produce := by
  cases offers with
  | stop =>
      rw [List.append_nil] at whole
      have moved : draining.turn .produce =
          ⟨⟨draining.feed.stream.dropProducer, none⟩, draining.world, draining.told⟩ := by
        simp only [turn, Feed.move, held, Activity.run]
      refine ⟨.producerLeft :: past, 0, ?_, .inl ?_⟩
      · rw [moved]
        refine underway_moved underway (.producerLeft _) rfl nofun nofun rfl ?_
        have nothing : accepted (.producerLeft :: past) = items :=
          (Exchange.accepted_cons _ past).trans ((List.append_nil _).trans took)
        rw [nothing, Exchange.closing_kept rfl, first, whole]
        exact .gone
      · rw [moved, work, work]
        exact Nat.add_lt_add_right (Nat.mul_lt_mul_of_pos_left (Nat.succ_pos _) Nat.two_pos) _
  | call offer resume rest _ offers =>
      refine produce_offered underway held (Nat.lt_succ_self _) fun reply slots after effect => ?_
      obtain ⟨fault, closes⟩ := closers offer (whole ▸ List.mem_append_right made List.mem_cons_self)
      obtain ⟨rfl, same⟩ := Exchange.offered_closing closes effect
      have next : closing (.offered offer true slots :: past) =
          ((made ++ [offer]).filterMap Offer.close?).head? := by
        rw [Exchange.closing_cons, first, List.filterMap_append, List.head?_append]
        simp [Event.close?, closes]
      rw [same, took, next]
      exact .ending _ _ rest (by rw [← whole, List.append_assoc]; rfl) offers

theorem produce_advances {producer : Option (Producer ω)} {taken : List (Option HeapObject)}
    {closed : Option (Option String)} (underway : Underway steady items closes tag past remaining draining)
    (closers : ∀ offer ∈ closes, ∃ fault, offer.close? = some fault)
    (stage : Stage steady items closes producer taken closed remaining) (held : draining.feed.producer = producer)
    (took : accepted past = taken) (first : closing past = closed) :
    Advances steady items closes tag remaining draining .produce := by
  cases stage with
  | initial change resume plan =>
      obtain ⟨world, offers⟩ := plan draining.world underway.world
      have moved : draining.turn .produce = ⟨⟨draining.feed.stream, some (resume draining.world)⟩,
          change draining.world, draining.told⟩ := by
        simp only [turn, Feed.move, held, Activity.run]
      refine ⟨past, items.length + closes.length + 1, ?_, .inl ?_⟩
      · rw [moved]
        have present : draining.feed.stream.producerPresent = true := by
          rw [underway.present, held]
          rfl
        refine { underway with world := world, present := present, stage := ?_ }
        rw [took, first]
        exact .pushing _ [] items rfl offers
      · rw [moved, work, work]
        exact Nat.add_lt_add_right (Nat.mul_lt_mul_of_pos_left (Nat.lt_succ_self _) Nat.two_pos) _
  | pushing producer taken pending whole offers =>
      cases pending with
      | nil =>
          rw [List.append_nil] at whole
          rw [List.length_nil, Nat.zero_add] at underway ⊢
          exact produce_ending underway closers held (List.nil_append closes) offers (took.trans whole) first
      | cons object pending =>
          cases offers with
          | call offer resume rest _ offers =>
              have less : pending.length + closes.length + 1 < (object :: pending).length + closes.length + 1 := by
                rw [List.length_cons]
                omega
              refine produce_offered underway held less fun reply slots after effect => ?_
              have opened : draining.feed.stream.closed = false := by
                rw [underway.follows.closed, first]
                rfl
              obtain ⟨rfl, more, same⟩ := Exchange.offered_push opened underway.consumer effect
              rw [more, same, took, first]
              refine .pushing _ _ pending ?_ offers
              rw [← whole, List.append_assoc]
              rfl
  | ending producer made rest whole offers =>
      exact produce_ending underway closers held whole offers took first
  | gone =>
      have moved : draining.turn .produce = draining := by
        simp only [turn, Feed.move, held, Activity.run]
      exact ⟨past, 0, moved.symm ▸ underway, .inr ⟨rfl, congrArg feed moved, .inl held⟩⟩

theorem ending_told {told before : List Polled} {ends : Nat} {ended : Bool}
    (whole : told = before ++ List.replicate ends .ended) (running : .ended ∉ before)
    (counted : ended = true ↔ 0 < ends) (found : Polled) (again : ended = true → found = .ended) :
    ∃ before ends, told ++ [found] = before ++ List.replicate ends .ended ∧ .ended ∉ before ∧
      (Event.polled found = .polled .ended ∨ ended = true ↔ 0 < ends) := by
  by_cases same : found = .ended
  · refine ⟨before, ends + 1, ?_, running, iff_of_true (.inl (congrArg _ same)) (Nat.succ_pos ends)⟩
    rw [whole, same, List.append_assoc, ← List.replicate_succ']
  · have unended : ¬ ended = true := fun ended => same (again ended)
    obtain rfl : ends = 0 := Nat.eq_zero_of_not_pos (mt counted.mpr unended)
    refine ⟨before ++ [found], 0, ?_, ?_, ?_⟩
    · rw [whole, List.replicate_zero, List.append_nil, List.append_nil]
    · intro member
      cases List.mem_append.mp member with
      | inl earlier => exact running earlier
      | inr last => exact same (List.mem_singleton.mp last).symm
    · refine iff_of_false ?_ (Nat.lt_irrefl 0)
      rintro (polled | ended)
      · exact same (Event.polled.inj polled)
      · exact unended ended

theorem heard_polled (heard : Heard draining) (consumer : draining.feed.stream.consumerPresent = true) :
    Heard (draining.turn .poll) := by
  obtain ⟨before, ends, told, running, ended⟩ := heard
  have effect := Exchange.poll_effect draining.feed.stream consumer
  have again : draining.feed.stream.ended = true → draining.feed.stream.poll.1 = .ended :=
    fun ended => congrArg Prod.fst (Stream.poll_ended ended)
  obtain ⟨before, ends, whole, unheard, counted⟩ :=
    ending_told told running ended draining.feed.stream.poll.1 again
  exact ⟨before, ends, whole, unheard, (Exchange.ended_effect effect).trans counted⟩

theorem ended_iff (heard : Heard draining) : draining.feed.stream.ended = true ↔ .ended ∈ draining.told := by
  obtain ⟨before, ends, told, running, counted⟩ := heard
  rw [counted, told, List.mem_append, or_iff_right running, List.mem_replicate, Nat.pos_iff_ne_zero]
  exact (and_iff_left rfl).symm

theorem underway_polled (underway : Underway steady items closes tag past remaining draining) :
    Underway steady items closes tag (.polled draining.feed.stream.poll.1 :: past) remaining
      (draining.turn .poll) := by
  have effect := Exchange.poll_effect draining.feed.stream underway.consumer
  have same : accepted (.polled draining.feed.stream.poll.1 :: past) = accepted past :=
    (Exchange.accepted_cons _ past).trans (List.append_nil _)
  constructor
  case world => exact underway.world
  case room => exact (Exchange.capacity_effect effect).symm ▸ underway.room
  case consumer => exact (Exchange.consumer_effect effect nofun).trans underway.consumer
  case present => exact (Exchange.present_effect effect nofun).trans underway.present
  case follows => exact Exchange.follows_effect underway.follows effect
  case stage =>
    rw [same, Exchange.closing_kept rfl]
    exact underway.stage
  case given =>
    have more : (draining.turn .poll).given = draining.given ++ draining.feed.stream.poll.1.item?.toList :=
      List.filterMap_append.trans (congrArg _ (by cases draining.feed.stream.poll.1 <;> rfl))
    rw [more, underway.given, Exchange.handed_cons]
    cases draining.feed.stream.poll.1 <;> rfl
  case ending => exact heard_polled underway.ending underway.consumer

theorem gone_closed {taken : List (Option HeapObject)} {closed : Option (Option String)}
    (stage : Stage steady items closes none taken closed remaining)
    (closers : ∀ offer ∈ closes, ∃ fault, offer.close? = some fault) (closing : closes ≠ []) :
    closed ≠ none := by
  cases stage with
  | gone =>
      cases closes with
      | nil => exact absurd rfl closing
      | cons offer rest =>
          obtain ⟨fault, closes⟩ := closers offer List.mem_cons_self
          rw [List.filterMap_cons_some closes]
          exact Option.some_ne_none _

theorem poll_advances (underway : Underway steady items closes tag past remaining draining)
    (closers : ∀ offer ∈ closes, ∃ fault, offer.close? = some fault) (closed : closes ≠ []) :
    Advances steady items closes tag remaining draining .poll := by
  refine ⟨_, remaining, underway_polled underway, ?_⟩
  have idle : draining.feed.stream.poll.2 = draining.feed.stream →
      (draining.turn .poll).feed = draining.feed := fun same => congrArg (Feed.mk · draining.feed.producer) same
  cases ended : draining.feed.stream.ended with
  | true => exact .inr ⟨rfl, idle (congrArg Prod.snd (Stream.poll_ended ended)), .inl ended⟩
  | false =>
      cases queue : draining.feed.stream.queue with
      | nil =>
          have opened := (Exchange.waiting_nil (queue ▸ underway.follows.waiting underway.consumer ended)).1
          have staying : draining.feed.producer ≠ none := by
            intro gone
            exact gone_closed (gone ▸ underway.stage) closers closed opened
          have present := underway.present.trans (Option.isSome_iff_ne_none.mpr staying)
          exact .inr ⟨rfl, idle (congrArg Prod.snd (Stream.poll_nothing ended queue present)), .inr ⟨queue, staying⟩⟩
      | cons slot rest =>
          have shorter : draining.feed.stream.poll.2.queue = rest := by
            cases slot with
            | item object => rw [Stream.poll_item ended queue]
            | finish fault => rw [Stream.poll_finish ended queue]
          refine .inl ?_
          change 2 * remaining + draining.feed.stream.poll.2.queue.length < _
          rw [work, shorter, queue, List.length_cons]
          omega

def Allowed (steady : ω → Prop) : Turn ω → Prop
  | .elsewhere world => steady world
  | _ => True

theorem turn_advances {turn : Turn ω} (underway : Underway steady items closes tag past remaining draining)
    (closers : ∀ offer ∈ closes, ∃ fault, offer.close? = some fault) (closed : closes ≠ [])
    (allowed : Allowed steady turn) : Advances steady items closes tag remaining draining turn := by
  cases turn with
  | produce => exact produce_advances underway closers underway.stage rfl rfl rfl
  | poll => exact poll_advances underway closers closed
  | elsewhere world => exact ⟨past, remaining, { underway with world := allowed }, .inr ⟨rfl, rfl, trivial⟩⟩

theorem run_told (turns : List (Turn ω)) (draining : Draining ω) :
    draining.told <+: (draining.run turns).told := by
  induction turns generalizing draining with
  | nil => exact List.prefix_rfl
  | cons turn turns ih =>
      refine List.IsPrefix.trans ?_ (ih (draining.turn turn))
      cases turn with
      | produce | elsewhere => exact List.prefix_rfl
      | poll => exact List.prefix_append _ _

def Wanes (steady : ω → Prop) (holds : Nat → Draining ω → Prop) : Prop :=
  ∀ work draining turn, holds work draining → Allowed steady turn →
    ∃ left, holds left (draining.turn turn) ∧
      (left < work ∨ left = work ∧ (draining.turn turn).feed = draining.feed ∧ Rests draining.feed turn)

theorem wanes_run {holds : Nat → Draining ω → Prop} (wanes : Wanes steady holds) (turns : List (Turn ω)) {work : Nat}
    (held : holds work draining) (allowed : ∀ turn ∈ turns, Allowed steady turn) :
    ∃ left, holds left (draining.run turns) ∧
      (left < work ∨
        left = work ∧ (draining.run turns).feed = draining.feed ∧ ∀ turn ∈ turns, Rests draining.feed turn) := by
  induction turns generalizing draining work with
  | nil => exact ⟨work, held, .inr ⟨rfl, rfl, nofun⟩⟩
  | cons turn turns ih =>
      obtain ⟨now, later⟩ := List.forall_mem_cons.mp allowed
      obtain ⟨between, next, step⟩ := wanes work draining turn held now
      obtain ⟨left, last, steps⟩ := ih next later
      refine ⟨left, last, ?_⟩
      rcases step with less | ⟨rfl, same, rests⟩
      · rcases steps with further | ⟨rfl, _, _⟩
        · exact .inl (Nat.lt_trans further less)
        · exact .inl less
      · rcases steps with further | ⟨rfl, still, resting⟩
        · exact .inl further
        · refine .inr ⟨rfl, still.trans same, List.forall_mem_cons.mpr ⟨rests, ?_⟩⟩
          exact same ▸ resting

/-- The rounds in which both sides have a turn, and others may have theirs. -/
def Fair (rounds : List (List (Turn ω))) : Prop := ∀ round ∈ rounds, .produce ∈ round ∧ .poll ∈ round

theorem wanes_end {holds : Nat → Draining ω → Prop} (wanes : Wanes steady holds)
    (tells : ∀ work draining, holds work draining → draining.feed.stream.ended = true → .ended ∈ draining.told)
    (rounds : List (List (Turn ω))) {work : Nat} (held : holds work draining)
    (allowed : ∀ turn ∈ rounds.flatten, Allowed steady turn) (fair : Fair rounds) (enough : work < rounds.length) :
    .ended ∈ (draining.run rounds.flatten).told := by
  induction rounds generalizing draining work with
  | nil => exact absurd enough (Nat.not_lt_zero _)
  | cons round rounds ih =>
      obtain ⟨⟨produce, poll⟩, others⟩ := List.forall_mem_cons.mp fair
      rw [List.flatten_cons] at allowed ⊢
      obtain ⟨now, later⟩ := List.forall_mem_append.mp allowed
      obtain ⟨left, next, advanced⟩ := wanes_run wanes round held now
      have split : draining.run (round ++ rounds.flatten) = (draining.run round).run rounds.flatten :=
        List.foldl_append
      rw [split]
      rcases advanced with less | ⟨rfl, same, rests⟩
      · rw [List.length_cons] at enough
        exact ih next later others (by omega)
      · -- Neither side had anything to do, so the end has been told.
        have ended : draining.feed.stream.ended = true := by
          rcases rests .poll poll with ended | ⟨empty, staying⟩
          · exact ended
          · rcases rests .produce produce with gone | filled
            · exact absurd gone staying
            · exact absurd empty filled
        exact (run_told rounds.flatten _).subset (tells left _ next (same ▸ ended))

theorem underway_wanes (closers : ∀ offer ∈ closes, ∃ fault, offer.close? = some fault) (closed : closes ≠ []) :
    Wanes steady fun left draining =>
      ∃ past remaining, Underway steady items closes tag past remaining draining ∧
        left = work remaining draining.feed := by
  rintro _ draining turn ⟨past, remaining, underway, rfl⟩ allowed
  obtain ⟨past, fewer, next, step⟩ := turn_advances underway closers closed allowed
  refine ⟨_, ⟨past, fewer, next, rfl⟩, step.imp_right ?_⟩
  rintro ⟨rfl, same, rests⟩
  exact ⟨congrArg (work fewer) same, same, rests⟩

theorem run_underway (turns : List (Turn ω))
    (underway : Underway steady items closes tag past remaining draining)
    (closers : ∀ offer ∈ closes, ∃ fault, offer.close? = some fault) (closed : closes ≠ [])
    (allowed : ∀ turn ∈ turns, Allowed steady turn) :
    ∃ past fewer, Underway steady items closes tag past fewer (draining.run turns) := by
  obtain ⟨_, ⟨past, fewer, last, _⟩, _⟩ :=
    wanes_run (underway_wanes closers closed) turns ⟨past, remaining, underway, rfl⟩ allowed
  exact ⟨past, fewer, last⟩

theorem rounds_end (rounds : List (List (Turn ω)))
    (underway : Underway steady items closes tag past remaining draining)
    (closers : ∀ offer ∈ closes, ∃ fault, offer.close? = some fault) (closed : closes ≠ [])
    (allowed : ∀ turn ∈ rounds.flatten, Allowed steady turn) (fair : Fair rounds)
    (enough : work remaining draining.feed < rounds.length) :
    .ended ∈ (draining.run rounds.flatten).told := by
  refine wanes_end (underway_wanes closers closed) ?_ rounds ⟨past, remaining, underway, rfl⟩ allowed fair enough
  rintro _ draining ⟨_, _, underway, _⟩ ended
  exact (ended_iff underway.ending).mp ended

theorem start_underway {change : ω → ω} {resume : ω → Producer ω} {world : ω} (tag : Tag) (capacity : Nat)
    (held : steady world)
    (plan : ∀ world, steady world → steady (change world) ∧ Offers (resume world) (items.map .push ++ closes) ()) :
    Underway steady items closes tag [] (items.length + closes.length + 2)
      (start (Feed.start tag capacity (.act change resume)) world) where
  world := held
  room := Nat.le_max_right capacity 1
  consumer := rfl
  present := rfl
  follows := Exchange.follows_start tag capacity
  stage := .initial change resume plan
  given := rfl
  ending := ⟨[], 0, rfl, nofun, iff_of_false nofun (Nat.lt_irrefl 0)⟩

theorem finished_underway {world : ω} (tag : Tag) (held : steady world) :
    Underway steady [] [.finish] tag [.producerLeft, .offered .finish true [.finish none]] 0
      (start (Feed.finished tag) world) where
  world := held
  room := Nat.one_pos
  consumer := rfl
  present := rfl
  follows :=
    Exchange.follows_effect
      (Exchange.follows_effect (Exchange.follows_start tag 1) (.closed _ .finish none rfl rfl rfl rfl))
      (.producerLeft _)
  stage := .gone
  given := rfl
  ending := ⟨[], 0, rfl, nofun, iff_of_false nofun (Nat.lt_irrefl 0)⟩

/-- What the polls of a stream of these items can have been told, and the fault that it shows. -/
structure Drains (items : List (Option HeapObject)) (fault : Option String) (draining : Draining ω) : Prop where
  told : ∃ before ends, draining.told = before ++ List.replicate ends .ended ∧ .ended ∉ before
  partly : draining.given <+: items
  wholly : .ended ∈ draining.told → draining.given = items ∧ draining.feed.stream.fault = fault
  unfinished : .ended ∉ draining.told → draining.feed.stream.fault = none

theorem stage_taken {producer : Option (Producer ω)} {taken : List (Option HeapObject)}
    {closed : Option (Option String)} (stage : Stage steady items closes producer taken closed remaining) :
    taken <+: items := by
  cases stage with
  | initial => exact List.nil_prefix
  | pushing _ _ pending whole => exact ⟨pending, whole⟩
  | ending | gone => exact List.prefix_rfl

theorem stage_closed {producer : Option (Producer ω)} {taken : List (Option HeapObject)}
    {closed : Option (Option String)} (stage : Stage steady items closes producer taken closed remaining)
    (over_with : closed ≠ none ∨ producer = none) :
    taken = items ∧ closed = (closes.filterMap Offer.close?).head? := by
  cases stage with
  | initial => simp at over_with
  | pushing => simp at over_with
  | gone => exact ⟨rfl, rfl⟩
  | ending _ made rest whole =>
      refine ⟨rfl, ?_⟩
      obtain ⟨fault, first⟩ := Option.ne_none_iff_exists'.mp (over_with.resolve_right (Option.some_ne_none _))
      rw [← whole, List.filterMap_append, List.head?_append, first]
      rfl

theorem underway_drains {fault : Option String}
    (underway : Underway steady items closes tag past remaining draining)
    (first : (closes.filterMap Offer.close?).head? = some fault) : Drains items fault draining := by
  have follows := underway.follows
  have partly : handed past <+: accepted past := by
    cases ended : draining.feed.stream.ended with
    | true => exact (follows.spent ended).whole ▸ List.prefix_rfl
    | false =>
        obtain ⟨waiting, _, whole⟩ := follows.waiting underway.consumer ended
        exact ⟨waiting, whole.symm⟩
  constructor
  case told =>
    obtain ⟨before, ends, told, running, _⟩ := underway.ending
    exact ⟨before, ends, told, running⟩
  case partly =>
    rw [underway.given]
    exact partly.trans (stage_taken underway.stage)
  case wholly =>
    intro heard
    have ended := (ended_iff underway.ending).mpr heard
    have spent := follows.spent ended
    -- the end was heard, so the feeding thread closed the stream or left: all stages are behind it
    have silent : closing past ≠ none ∨ draining.feed.producer = none := by
      refine spent.silent.imp (fun closed => ?_) fun gone => ?_
      · exact Option.isSome_iff_ne_none.mp (follows.closed.symm.trans closed)
      · exact Option.isNone_iff_eq_none.mp (Option.isSome_eq_false_iff.mp (underway.present.symm.trans gone))
    obtain ⟨whole, closed⟩ := stage_closed underway.stage silent
    rw [underway.given, ← spent.whole, follows.fault, Exchange.faultOf, if_pos ended, closed, first]
    exact ⟨whole, rfl⟩
  case unfinished =>
    intro unheard
    rw [follows.fault, Exchange.faultOf, if_neg (mt (ended_iff underway.ending).mp unheard)]

end

end Draining

end HeapCensus
