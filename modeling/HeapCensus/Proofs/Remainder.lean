import HeapCensus.Proofs.Delivery

set_option autoImplicit false

namespace HeapCensus

namespace Stream

structure Holds (stream : Stream) (rest : List (Option HeapObject)) : Prop where
  settled : stream.closed = true ∨ stream.producerPresent = false
  queue : stream.ended = false → ∃ last : Option (Option String),
    stream.queue = rest.map .item ++ (last.map .finish).toList ∧ (last = none → stream.producerPresent = false)
  spent : stream.ended = true → rest = []

variable {stream : Stream} {rest : List (Option HeapObject)}

theorem poll_held {item : Option HeapObject} (holds : Holds stream (item :: rest)) :
    ∃ after, stream.poll = (.item item, after) ∧ Holds after rest ∧ after.ended = false ∧
      after.delivered = stream.delivered + 1 := by
  cases ended : stream.ended with
  | true => cases holds.spent ended
  | false =>
      obtain ⟨last, queue, gone⟩ := holds.queue ended
      refine ⟨_, poll_item ended queue, ⟨holds.settled, fun _ => ⟨last, rfl, gone⟩, ?_⟩, ended, rfl⟩
      intro finished
      exact absurd (ended.symm.trans finished) Bool.false_ne_true

theorem poll_spent (holds : Holds stream []) :
    ∃ after, stream.poll = (.ended, after) ∧ Holds after [] ∧ after.ended = true ∧
      after.delivered = stream.delivered := by
  have nothing : ∀ after : Stream, after.closed = stream.closed → after.producerPresent = stream.producerPresent →
      after.ended = true → Holds after [] := by
    intro after closed producer ended
    constructor
    · rw [closed, producer]
      exact holds.settled
    · intro running
      exact absurd (running.symm.trans ended) Bool.false_ne_true
    · exact fun _ => rfl
  cases ended : stream.ended with
  | true => exact ⟨stream, poll_ended ended, holds, ended, rfl⟩
  | false =>
      obtain ⟨last, queue, gone⟩ := holds.queue ended
      cases last with
      | none => exact ⟨_, poll_stopped ended queue (gone rfl), nothing _ rfl rfl rfl, rfl, rfl⟩
      | some fault => exact ⟨_, poll_finish ended queue, nothing _ rfl rfl rfl, rfl, rfl⟩

structure Drained (stream : Stream) (rest : List (Option HeapObject)) (limit : Nat) (after : Stream) : Prop where
  holds : Holds after (rest.drop limit)
  delivered : after.delivered = stream.delivered + Nat.min limit rest.length
  ends : after.ended = true ↔ rest.length < limit ∨ stream.ended = true

theorem drain_holds (limit : Nat) (holds : Holds stream rest) :
    (stream.drain limit).1 = rest.take limit ∧ Drained stream rest limit (stream.drain limit).2 := by
  induction limit generalizing stream rest with
  | zero => exact ⟨rfl, holds, by simp [drain], by simp [drain]⟩
  | succ limit ih =>
      cases rest with
      | nil =>
          obtain ⟨after, found, spent, ended, delivered⟩ := poll_spent holds
          rw [Exchange.drain_ended limit found]
          exact ⟨rfl, spent, by simp [delivered], by simp [ended]⟩
      | cons item rest =>
          obtain ⟨after, found, held, running, delivered⟩ := poll_held holds
          obtain ⟨taken, drained⟩ := ih held
          have unended : stream.ended = false := by
            cases ended : stream.ended with
            | true => cases holds.spent ended
            | false => rfl
          rw [Exchange.drain_item limit found, taken]
          refine ⟨rfl, drained.holds, ?_, ?_⟩
          · have counts := drained.delivered
            simp only [Nat.min_def, List.length_cons] at counts ⊢
            split at counts <;> split <;> omega
          · rw [drained.ends, running, unended, List.length_cons]
            simp

theorem poll_again (without : stream.poll.1.item? = none) : stream.poll.2.poll = stream.poll := by
  cases ended : stream.ended with
  | true => simp [poll_ended ended]
  | false =>
      cases queue : stream.queue with
      | nil =>
          cases producer : stream.producerPresent with
          | true => simp [poll_nothing ended queue producer]
          | false =>
              rw [poll_stopped ended queue producer]
              exact poll_ended rfl
      | cons slot slots =>
          cases slot with
          | item object =>
              rw [poll_item ended queue] at without
              cases without
          | finish fault =>
              rw [poll_finish ended queue]
              exact poll_ended rfl

theorem drain_again (limit : Nat) (without : stream.poll.1.item? = none) :
    stream.poll.2.drain limit = ([], stream.poll.2) := by
  cases limit with
  | zero => rfl
  | succ limit =>
      rw [drain, poll_again without]
      split
      case h_1 object rest found =>
        rw [found] at without
        cases without
      case h_2 found => simp [found]

theorem drain_add (first second : Nat) (stream : Stream) :
    stream.drain (first + second) =
      ((stream.drain first).1 ++ ((stream.drain first).2.drain second).1,
        ((stream.drain first).2.drain second).2) := by
  induction first generalizing stream with
  | zero =>
      rw [Nat.zero_add]
      rfl
  | succ first ih =>
      rw [Nat.succ_add]
      cases polled : stream.poll with
      | mk found after =>
          cases found with
          | item object =>
              rw [Exchange.drain_item _ polled, Exchange.drain_item _ polled, ih]
              rfl
          | nothing | ended =>
              have without : stream.poll.1.item? = none := by
                rw [polled]
                rfl
              have again := drain_again second without
              rw [polled] at again
              simp only [drain, polled, again, List.append_nil]

def nexts : Nat → Stream → Option (List (Option (Option HeapObject)) × Stream)
  | 0, stream => some ([], stream)
  | amount + 1, stream => do
      let (item, middle) ← stream.next
      let (items, after) ← nexts amount middle
      return (item :: items, after)

theorem deliver_settled (settled : stream.closed = true ∨ stream.producerPresent = false) (limit : Nat) :
    stream.deliver limit = some (stream.drain limit) := by
  apply if_neg
  rcases settled with closed | gone
  · simp [mustWait, closed]
  · simp [mustWait, gone]

theorem nexts_held (amount : Nat) (holds : Holds stream rest) :
    stream.nexts amount =
      some ((rest.take amount).map some ++ List.replicate (amount - rest.length) none, (stream.drain amount).2) := by
  induction amount generalizing stream rest with
  | zero => simp [nexts, drain]
  | succ amount ih =>
      obtain ⟨taken, drained⟩ := drain_holds 1 holds
      have others := ih drained.holds
      have state := drain_add 1 amount stream
      rw [Nat.add_comm] at state
      rw [nexts, next, deliver_settled holds.settled, Option.map_some, taken, state]
      simp only [Option.bind_eq_bind, Option.bind_some, others]
      cases rest with
      | nil => simp [List.replicate_succ]
      | cons item rest => simp

/-- The ways to take what is left, told by one list. `after` is the stream when so many were asked for. -/
structure HandsOut (stream : Stream) (rest : List (Option HeapObject)) (after : Nat → Stream) : Prop where
  delivers : ∀ limit, stream.deliver limit = some (rest.take limit, after limit)
  answers : ∀ limit, stream.serve (.deliver limit) = some (.delivered (Nat.min limit rest.length), after limit)
  counts : ∀ limit, (after limit).delivered = stream.delivered + Nat.min limit rest.length
  -- The last item does not bring the end with it.
  ends : ∀ limit, (after limit).ended = true ↔ rest.length < limit ∨ stream.ended = true
  composes : ∀ first second, ∃ items, (after first).deliver second = some (items, after (first + second)) ∧
    rest.take first ++ items = rest.take (first + second)
  collects : ∀ limit, stream.collect limit = some ((rest.take limit).filterMap id, after limit)
  -- One by one: the items, and then nothing for ever.
  yields : ∀ amount, stream.nexts amount =
    some ((rest.take amount).map some ++ List.replicate (amount - rest.length) none, after amount)

theorem hands_out (holds : Holds stream rest) : HandsOut stream rest fun limit => (stream.drain limit).2 := by
  have drained := fun limit => (drain_holds limit holds).2
  have delivers : ∀ limit, stream.deliver limit = some (rest.take limit, (stream.drain limit).2) := by
    intro limit
    rw [deliver_settled holds.settled, ← (drain_holds limit holds).1]
  constructor
  case delivers => exact delivers
  case answers =>
    intro limit
    rw [serve, delivers, Option.map_some, List.length_take]
  case counts => exact fun limit => (drained limit).delivered
  case ends => exact fun limit => (drained limit).ends
  case composes =>
    intro first second
    have held := (drained first).holds
    refine ⟨(rest.drop first).take second, ?_, List.take_add.symm⟩
    rw [deliver_settled held.settled, drain_add, ← (drain_holds second held).1]
  case collects =>
    intro limit
    rw [collect, delivers]
    rfl
  case yields => exact fun amount => nexts_held amount holds

end Stream

namespace Exchange

theorem follows_holds {tag : Tag} {past : History} {stream : Stream} (follows : Follows tag past stream)
    (consumer : stream.consumerPresent = true)
    (settled : stream.closed = true ∨ stream.producerPresent = false) :
    ∃ rest, accepted past = handed past ++ rest ∧ Stream.Holds stream rest := by
  cases ended : stream.ended with
  | true =>
      have spent := follows.spent ended
      refine ⟨[], ?_, settled, ?_, fun _ => rfl⟩
      · rw [List.append_nil]
        exact spent.whole
      · intro running
        exact absurd (running.symm.trans ended) Bool.false_ne_true
  | false =>
      obtain ⟨rest, queue, whole⟩ := follows.waiting consumer ended
      refine ⟨rest, whole, settled, fun _ => ⟨closing past, queue, ?_⟩, ?_⟩
      · intro opened
        have unclosed : stream.closed = false := by rw [follows.closed, opened]; rfl
        exact settled.resolve_left (unclosed ▸ Bool.false_ne_true)
      · intro finished
        exact absurd (ended.symm.trans finished) Bool.false_ne_true

theorem remainder_handed_out (tag : Tag) (capacity : Nat) (moves : List Move)
    (consumer : (run tag capacity moves).2.stream.consumerPresent = true)
    (settled : (run tag capacity moves).2.stream.closed = true ∨
      (run tag capacity moves).2.stream.producerPresent = false) :
    ∃ rest after, accepted (run tag capacity moves).1 = handed (run tag capacity moves).1 ++ rest ∧
      Stream.HandsOut (run tag capacity moves).2.stream rest after := by
  obtain ⟨rest, whole, holds⟩ := follows_holds (run_follows tag capacity moves) consumer settled
  exact ⟨rest, _, whole, Stream.hands_out holds⟩

def faulted : List Move :=
  let objects := [7, 8].map fun id => (⟨⟨id⟩, HeapClass.concrete ⟨12⟩ "com.acme.Base" none⟩ : HeapObject)
  [.offer (.push objects[0]?), .offer (.push none), .offer (.push objects[1]?), .offer (.fail "gone"),
    .ask .next, .poll, .answer]

theorem faulted_remainder_handed_out :
    (run ⟨1⟩ 4 faulted).2.stream.consumerPresent = true ∧ (run ⟨1⟩ 4 faulted).2.stream.closed = true ∧
      ∃ rest after, Stream.HandsOut (run ⟨1⟩ 4 faulted).2.stream rest after ∧ rest.length = 2 ∧
        rest.head? = some none := by
  have consumer : (run ⟨1⟩ 4 faulted).2.stream.consumerPresent = true := by decide
  have closed : (run ⟨1⟩ 4 faulted).2.stream.closed = true := by decide
  obtain ⟨rest, after, whole, hands⟩ := remainder_handed_out ⟨1⟩ 4 faulted consumer (.inl closed)
  have left : (accepted (run ⟨1⟩ 4 faulted).1).drop (handed (run ⟨1⟩ 4 faulted).1).length = rest := by
    rw [whole, List.drop_left]
  refine ⟨consumer, closed, rest, after, hands, ?_, ?_⟩
  · rw [← left]
    decide
  · rw [← left]
    decide

end Exchange

end HeapCensus
