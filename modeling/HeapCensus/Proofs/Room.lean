import HeapCensus.Proofs.Draining

set_option autoImplicit false

namespace HeapCensus

namespace Stream

variable {stream : Stream}

theorem accept_eq_none_iff (stream : Stream) (offer : Offer) :
    stream.accept offer = none ↔ stream.closed = false ∧ stream.isFull = true := by
  have closes : ∀ fault, stream.close fault = none ↔ stream.closed = false ∧ stream.isFull = true := by
    intro fault
    cases closed : stream.closed with
    | true => simp [close_closed closed]
    | false =>
        cases full : stream.isFull with
        | true => simp [close_full closed full]
        | false => simp [close_open closed full]
  cases offer with
  | push object =>
      rw [accept]
      cases closed : stream.closed with
      | true => simp [push_closed closed]
      | false =>
          cases full : stream.isFull with
          | true => simp [push_full closed full]
          | false => simp [push_open closed full]
  | finish => exact Option.map_eq_none_iff.trans (closes none)
  | fail message => exact Option.map_eq_none_iff.trans (closes (some message))

theorem full_iff (stream : Stream) :
    stream.isFull = true ↔ stream.consumerPresent = true ∧ stream.capacity ≤ stream.queue.length := by
  rw [isFull, Bool.and_eq_true, decide_eq_true_iff]

theorem poll_nothing_iff (stream : Stream) :
    stream.poll.1 = .nothing ↔ stream.ended = false ∧ stream.queue = [] ∧ stream.producerPresent = true := by
  cases ended : stream.ended with
  | true => simp [poll_ended ended]
  | false =>
      cases queue : stream.queue with
      | nil =>
          cases producer : stream.producerPresent with
          | true => simp [poll_nothing ended queue producer]
          | false => simp [poll_stopped ended queue producer]
      | cons slot rest =>
          cases slot with
          | item object => simp [poll_item ended queue]
          | finish fault => simp [poll_finish ended queue]

end Stream

namespace Exchange

theorem room_of_accept {stream after : Stream} {offer : Offer} {reply : Bool}
    (accepted : stream.accept offer = some (reply, after)) (consumer : stream.consumerPresent = true)
    (opened : stream.closed = false) : stream.queue.length < stream.capacity := by
  refine Nat.lt_of_not_le fun many => ?_
  have waits := (Stream.accept_eq_none_iff stream offer).mpr ⟨opened, (Stream.full_iff stream).mpr ⟨consumer, many⟩⟩
  cases waits.symm.trans accepted

theorem fits_effect {stream after : Stream} {event : Event} (effect : Effect stream event after)
    (fits : stream.queue.length ≤ stream.capacity)
    (room : event.sent ≠ [] → stream.queue.length < stream.capacity) :
    after.queue.length ≤ after.capacity := by
  cases effect with
  | pushed | closed =>
      rw [List.length_append]
      exact room (List.cons_ne_nil _ _)
  | took object rest _ _ queue | finished fault rest _ _ queue =>
      rw [queue] at fits
      exact Nat.le_of_succ_le fits
  | consumerLeft => exact Nat.zero_le _
  | refused | closedUnheard | closedAgain | producerLeft | asked | answered | stopped | foundNothing | spent =>
      exact fits

theorem room_of_offered {stream after : Stream} {offer : Offer} {reply : Bool} {slots : List Slot}
    (effect : Effect stream (.offered offer reply slots) after) (sends : slots ≠ [])
    (room : stream.consumerPresent = true → stream.closed = false → stream.queue.length < stream.capacity) :
    stream.queue.length < stream.capacity := by
  cases effect with
  | pushed object _ opened consumer => exact room consumer opened
  | closed offer fault _ _ opened consumer => exact room consumer opened
  | refused | closedUnheard | closedAgain => exact absurd rfl sends

theorem room_of_move {exchange after : Exchange} {event : Event} {move : Move}
    (moved : exchange.move move = some (event, after)) (sends : event.sent ≠ []) :
    exchange.stream.queue.length < exchange.stream.capacity := by
  cases move with
  | offer offer =>
      obtain ⟨producer, offered⟩ := Option.ite_none_right_eq_some.mp moved
      obtain ⟨reply, accepted, rfl⟩ := offer_some offered
      exact room_of_offered (accept_effect producer accepted) sends (room_of_accept accepted)
  | dropProducer | ask | dropConsumer =>
      obtain ⟨_, same⟩ := Option.ite_none_right_eq_some.mp moved
      obtain ⟨rfl, _⟩ := Prod.mk.inj (Option.some.inj same)
      exact absurd rfl sends
  | poll | answer =>
      cases underway : exchange.reading with
      | none => simp [Exchange.move, underway] at moved
      | some reading =>
          simp only [Exchange.move, underway, Option.ite_none_right_eq_some, Option.ite_none_left_eq_some] at moved
          obtain ⟨_, same⟩ := moved
          obtain ⟨rfl, _⟩ := Prod.mk.inj (Option.some.inj same)
          exact absurd rfl sends

theorem run_fits (tag : Tag) (capacity : Nat) (moves : List Move) :
    (run tag capacity moves).2.stream.capacity = max capacity 1 ∧
      (run tag capacity moves).2.stream.queue.length ≤ max capacity 1 := by
  have kept : ∀ (past : History) (exchange after : Exchange) (event : Event) (move : Move),
      exchange.stream.capacity = max capacity 1 ∧ exchange.stream.queue.length ≤ max capacity 1 →
        exchange.move move = some (event, after) →
          after.stream.capacity = max capacity 1 ∧ after.stream.queue.length ≤ max capacity 1 := by
    intro past exchange after event move ⟨same, fits⟩ moved
    have effect := move_effect moved
    have still := (capacity_effect effect).trans same
    refine ⟨still, ?_⟩
    rw [← still]
    exact fits_effect effect (same ▸ fits) (room_of_move moved)
  exact steps_keep kept ⟨rfl, Nat.zero_le _⟩ moves

section Waits

variable {tag : Tag} {past : History} {stream : Stream}

theorem poll_full (follows : Follows tag past stream) (consumer : stream.consumerPresent = true)
    (opened : stream.closed = false) (some_room : 0 < stream.capacity)
    (full : stream.capacity ≤ stream.queue.length) :
    ∃ object rest, stream.queue = .item object :: rest ∧
      stream.poll = (.item object, { stream with queue := rest, delivered := stream.delivered + 1 }) := by
  -- A producer that waits has sent nothing but items, and the consumer can take the first of them.
  have filled := Nat.lt_of_lt_of_le some_room full
  have running : stream.ended = false := by
    cases ended : stream.ended with
    | false => rfl
    | true =>
        rw [(follows.spent ended).queue] at filled
        cases filled
  cases queue : stream.queue with
  | nil =>
      rw [queue] at filled
      cases filled
  | cons slot rest =>
      cases slot with
      | item object => exact ⟨object, rest, rfl, Stream.poll_item running queue⟩
      | finish fault =>
          have closes := (waiting_finish (queue ▸ follows.waiting consumer running)).2.1
          rw [closing_open follows.closed opened] at closes
          cases closes

theorem poll_offered {after : Stream} {offer : Offer} {reply : Bool} {slots : List Slot}
    (effect : Effect stream (.offered offer reply slots) after) (consumer : stream.consumerPresent = true)
    (opened : stream.closed = false) : after.poll.1 ≠ .nothing := by
  have absent : ¬ stream.consumerPresent = false := fun left => Bool.false_ne_true (left.symm.trans consumer)
  have unclosed : ¬ stream.closed = true := fun closed => Bool.false_ne_true (opened.symm.trans closed)
  intro nothing
  have empty := ((Stream.poll_nothing_iff after).mp nothing).2.1
  cases effect with
  | pushed object => exact List.append_ne_nil_of_right_ne_nil _ (List.cons_ne_nil _ _) empty
  | closed offer fault => exact List.append_ne_nil_of_right_ne_nil _ (List.cons_ne_nil _ _) empty
  | refused object _ unheard => exact absurd unheard (not_or_intro unclosed absent)
  | closedUnheard offer fault _ _ _ left => exact absurd left absent
  | closedAgain offer fault _ _ closed => exact absurd closed unclosed

theorem poll_makes_room (follows : Follows tag past stream) (some_room : 0 < stream.capacity)
    (fits : stream.queue.length ≤ stream.capacity) {offer : Offer} (waiting : stream.accept offer = none) :
    (∃ object, stream.poll.1 = .item object) ∧ stream.poll.2.accept offer ≠ none := by
  obtain ⟨opened, filled⟩ := (Stream.accept_eq_none_iff stream offer).mp waiting
  obtain ⟨consumer, full⟩ := (Stream.full_iff stream).mp filled
  obtain ⟨object, rest, queue, polled⟩ := poll_full follows consumer opened some_room full
  rw [polled]
  refine ⟨⟨object, rfl⟩, fun still => ?_⟩
  have many := ((Stream.full_iff _).mp ((Stream.accept_eq_none_iff _ offer).mp still).2).2
  rw [queue, List.length_cons] at fits
  exact Nat.not_succ_le_self rest.length (Nat.le_trans fits many)

theorem offer_ends_wait (follows : Follows tag past stream) (some_room : 0 < stream.capacity)
    (consumer : stream.consumerPresent = true) (nothing : stream.poll.1 = .nothing) :
    stream.queue = [] ∧ stream.producerPresent = true ∧ stream.closed = false ∧
      ∀ offer, ∃ reply after, stream.accept offer = some (reply, after) ∧ after.poll.1 ≠ .nothing := by
  obtain ⟨running, empty, producer⟩ := (Stream.poll_nothing_iff stream).mp nothing
  have unsealed := (waiting_nil (empty ▸ follows.waiting consumer running)).1
  have opened : stream.closed = false := by
    rw [follows.closed, unsealed]
    rfl
  refine ⟨empty, producer, opened, fun offer => ?_⟩
  cases accepted : stream.accept offer with
  | none => exact absurd empty (Draining.accept_waits some_room accepted)
  | some answer =>
      obtain ⟨reply, after⟩ := answer
      exact ⟨reply, after, rfl, poll_offered (accept_effect producer accepted) consumer opened⟩

theorem end_buffered (follows : Follows tag past stream) (consumer : stream.consumerPresent = true)
    (closed : stream.closed = true) (running : stream.ended = false) :
    ∃ (items : List (Option HeapObject)) (fault : Option String),
      closing past = some fault ∧ stream.queue = items.map .item ++ [.finish fault] := by
  obtain ⟨items, slots, _⟩ := follows.waiting consumer running
  obtain ⟨fault, first⟩ := Option.isSome_iff_exists.mp (follows.closed.symm.trans closed)
  refine ⟨items, fault, first, ?_⟩
  rw [slots, first]
  rfl

end Waits

theorem ends_never_both_wait (tag : Tag) (capacity : Nat) (moves : List Move) :
    let past := (run tag capacity moves).1
    let stream := (run tag capacity moves).2.stream
    stream.queue.length ≤ max capacity 1 ∧
      (∀ offer, stream.accept offer = none ↔
        stream.closed = false ∧ stream.consumerPresent = true ∧ stream.queue.length = max capacity 1) ∧
      -- The wait of a producer is over with the next poll, and the wait of a consumer with the next offer.
      (∀ offer, stream.accept offer = none →
        (∃ object, stream.poll.1 = .item object) ∧ stream.poll.2.accept offer ≠ none) ∧
      (stream.consumerPresent = true → stream.poll.1 = .nothing →
        stream.queue = [] ∧ stream.producerPresent = true ∧ stream.closed = false ∧
          ∀ offer, ∃ reply after, stream.accept offer = some (reply, after) ∧ after.poll.1 ≠ .nothing) ∧
      (stream.closed = true → stream.consumerPresent = true → stream.ended = false →
        ∃ (items : List (Option HeapObject)) (fault : Option String),
          closing past = some fault ∧ stream.queue = items.map .item ++ [.finish fault]) := by
  intro past stream
  have follows : Follows tag past stream := run_follows tag capacity moves
  obtain ⟨room, fits⟩ : stream.capacity = max capacity 1 ∧ stream.queue.length ≤ max capacity 1 :=
    run_fits tag capacity moves
  have positive : 0 < stream.capacity := room ▸ Nat.le_max_right capacity 1
  refine ⟨fits, fun offer => ?_, fun offer => ?_, ?_, fun closed consumer => end_buffered follows consumer closed⟩
  · rw [Stream.accept_eq_none_iff, Stream.full_iff, room]
    exact and_congr_right fun _ => and_congr_right fun _ => ⟨Nat.le_antisymm fits, Nat.le_of_eq ∘ Eq.symm⟩
  · exact poll_makes_room follows positive (room ▸ fits)
  · exact offer_ends_wait follows positive

-- The end slot itself needs room.
example : (run ⟨1⟩ 0 [.offer (.push none)]).2.stream.accept .finish = none := by decide

end Exchange

end HeapCensus
