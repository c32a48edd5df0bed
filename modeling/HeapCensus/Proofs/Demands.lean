import HeapCensus.Proofs.Exchange

set_option autoImplicit false

namespace HeapCensus

def Stream.serve (stream : Stream) : Demand → Option (Answer × Stream)
  | .poll => some (.polled stream.poll.1, stream.poll.2)
  | .next => stream.next.map fun taken => (.next taken.1, taken.2)
  | .deliver limit => (stream.deliver limit).map fun taken => (.delivered taken.1.length, taken.2)
  | .collect limit => (stream.collect limit).map fun taken => (.collected taken.1, taken.2)

namespace Reading

structure Sound (reading : Reading) : Prop where
  within : reading.taken.length ≤ reading.demand.limit
  polled : reading.demand = .poll → reading.taken = (reading.heard.bind Polled.item?).toList

theorem sound_start (demand : Demand) : Sound (start demand) :=
  ⟨Nat.zero_le _, fun _ => rfl⟩

theorem sound_hear {reading : Reading} (sound : Sound reading) (wants : reading.wants = true)
    (found : Polled) : Sound (reading.hear found) := by
  have one : found.item?.toList.length ≤ 1 := Option.length_toList_le
  obtain ⟨demand, taken, heard⟩ := reading
  cases demand with
  | poll =>
      have before : heard = none := Option.isNone_iff_eq_none.mp wants
      subst before
      have nothing : taken = [] := sound.polled rfl
      subst nothing
      exact ⟨one, fun _ => rfl⟩
  | next | deliver | collect =>
      have more := (Bool.and_eq_true_iff.mp wants).1
      refine ⟨?_, fun poll => by cases poll⟩
      rw [hear, List.length_append]
      exact Nat.le_trans (Nat.add_le_add_left one _) (of_decide_eq_true more)

theorem wants_many {demand : Demand} (many : demand ≠ .poll) (taken : List (Option HeapObject))
    (heard : Option Polled) :
    wants ⟨demand, taken, heard⟩ =
      (decide (taken.length < demand.limit) && decide (heard ≠ some .ended)) := by
  cases demand with
  | poll => exact absurd rfl many
  | next | deliver | collect => rfl

def Tells (reading : Reading) : Answer → Prop
  | .polled found => reading.demand = .poll ∧ reading.taken = found.item?.toList
  | .next item => reading.demand = .next ∧ reading.taken = item.toList
  | .delivered amount =>
      ∃ limit, reading.demand = .deliver limit ∧ amount = reading.taken.length ∧ amount ≤ limit
  | .collected objects =>
      ∃ limit, reading.demand = .collect limit ∧ objects = reading.taken.filterMap id ∧
        reading.taken.length ≤ limit

theorem answer_tells {reading : Reading} (sound : Sound reading) (done : reading.wants = false) :
    reading.Tells reading.answer := by
  obtain ⟨demand, taken, heard⟩ := reading
  cases demand with
  | poll =>
      cases heard with
      | none => cases done
      | some found => exact ⟨rfl, sound.polled rfl⟩
  | next =>
      have few : taken.length ≤ 1 := sound.within
      cases taken with
      | nil => exact ⟨rfl, rfl⟩
      | cons item items =>
          have none : items = [] := List.eq_nil_of_length_eq_zero (by simpa using few)
          subst none
          exact ⟨rfl, rfl⟩
  | deliver limit => exact ⟨limit, rfl, rfl, sound.within⟩
  | collect limit => exact ⟨limit, rfl, rfl, sound.within⟩

end Reading

namespace Exchange

def inHand (underway : Option Reading) : List (Option HeapObject) := (underway.map Reading.taken).getD []

inductive Handling : Option Reading → Event → Option Reading → Prop
  | offered (reading : Option Reading) (offer : Offer) (reply : Bool) (slots : List Slot) :
      Handling reading (.offered offer reply slots) reading
  | producerLeft (reading : Option Reading) : Handling reading .producerLeft reading
  | asked (demand : Demand) : Handling none (.asked demand) (some (Reading.start demand))
  | polled (reading : Reading) (found : Polled) :
      reading.wants = true → Handling (some reading) (.polled found) (some (reading.hear found))
  | answered (reading : Reading) :
      reading.wants = false → Handling (some reading) (.answered reading reading.answer) none
  | consumerLeft (reading : Option Reading) : Handling reading .consumerLeft reading

theorem move_handling {exchange after : Exchange} {event : Event} {move : Move}
    (moved : exchange.move move = some (event, after)) :
    Handling exchange.reading event after.reading := by
  cases move with
  | offer offer =>
      obtain ⟨_, offered⟩ := Option.ite_none_right_eq_some.mp moved
      obtain ⟨⟨reply, stream⟩, _, same⟩ := Option.map_eq_some_iff.mp offered
      obtain ⟨rfl, rfl⟩ := Prod.mk.inj same
      exact .offered exchange.reading offer reply _
  | dropProducer =>
      obtain ⟨_, same⟩ := Option.ite_none_right_eq_some.mp moved
      obtain ⟨rfl, rfl⟩ := Prod.mk.inj (Option.some.inj same)
      exact .producerLeft exchange.reading
  | ask demand =>
      obtain ⟨free, same⟩ := Option.ite_none_right_eq_some.mp moved
      obtain ⟨rfl, rfl⟩ := Prod.mk.inj (Option.some.inj same)
      have idle : exchange.reading = none :=
        Option.isNone_iff_eq_none.mp (Bool.and_eq_true_iff.mp free).2
      rw [idle]
      exact .asked demand
  | poll =>
      cases underway : exchange.reading with
      | none => simp [Exchange.move, underway] at moved
      | some reading =>
          simp only [Exchange.move, underway, Option.ite_none_right_eq_some, Bool.and_eq_true] at moved
          obtain ⟨⟨_, wants⟩, same⟩ := moved
          obtain ⟨rfl, rfl⟩ := Prod.mk.inj (Option.some.inj same)
          exact .polled reading exchange.stream.poll.1 wants
  | answer =>
      cases underway : exchange.reading with
      | none => simp [Exchange.move, underway] at moved
      | some reading =>
          simp only [Exchange.move, underway, Option.ite_none_left_eq_some, Bool.not_eq_true] at moved
          obtain ⟨done, same⟩ := moved
          obtain ⟨rfl, rfl⟩ := Prod.mk.inj (Option.some.inj same)
          exact .answered reading done
  | dropConsumer =>
      obtain ⟨_, same⟩ := Option.ite_none_right_eq_some.mp moved
      obtain ⟨rfl, rfl⟩ := Prod.mk.inj (Option.some.inj same)
      exact .consumerLeft exchange.reading

/-- The demands of a history: what they took is what was handed over, and each was answered by it. -/
structure Served (past : History) (underway : Option Reading) : Prop where
  handed : handed past = received past ++ inHand underway
  sound : ∀ reading, underway = some reading → reading.Sound
  told : ∀ reading answer, .answered reading answer ∈ past → reading.Tells answer

theorem served_kept {past : History} {underway : Option Reading} {event : Event}
    (served : Served past underway) (nothing : event.handed = []) (none : event.received = [])
    (unanswered : ∀ reading answer, event ≠ .answered reading answer) :
    Served (event :: past) underway := by
  refine ⟨?_, served.sound, ?_⟩
  · rw [handed_cons, received_cons, nothing, none, List.append_nil, List.append_nil]
    exact served.handed
  · intro reading answer member
    cases List.mem_cons.mp member with
    | inl same => exact absurd same.symm (unanswered reading answer)
    | inr before => exact served.told reading answer before

theorem served_polled {past : History} {reading : Reading} (served : Served past (some reading))
    (wants : reading.wants = true) (found : Polled) :
    Served (.polled found :: past) (some (reading.hear found)) := by
  refine ⟨?_, ?_, ?_⟩
  · rw [handed_cons, received_cons, served.handed]
    cases found <;> simp [Event.handed, Event.received, inHand, Reading.hear, Polled.item?]
  · intro next same
    obtain rfl := Option.some.inj same
    exact Reading.sound_hear (served.sound reading rfl) wants found
  · intro other answer member
    cases List.mem_cons.mp member with
    | inl same => cases same
    | inr before => exact served.told other answer before

theorem served_answered {past : History} {reading : Reading} (served : Served past (some reading))
    (done : reading.wants = false) : Served (.answered reading reading.answer :: past) none := by
  refine ⟨?_, nofun, ?_⟩
  · rw [handed_cons, received_cons, served.handed]
    simp [Event.handed, Event.received, inHand]
  · intro other answer member
    cases List.mem_cons.mp member with
    | inl same =>
        obtain ⟨rfl, rfl⟩ := Event.answered.inj same
        exact Reading.answer_tells (served.sound other rfl) done
    | inr before => exact served.told other answer before

theorem served_handling {past : History} {underway after : Option Reading} {event : Event}
    (served : Served past underway) (handling : Handling underway event after) :
    Served (event :: past) after := by
  cases handling with
  | asked demand =>
      have kept : Served (.asked demand :: past) none := served_kept served rfl rfl nofun
      refine ⟨kept.handed, ?_, kept.told⟩
      intro reading same
      obtain rfl := Option.some.inj same
      exact Reading.sound_start demand
  | polled reading found wants => exact served_polled served wants found
  | answered reading done => exact served_answered served done
  | offered | producerLeft | consumerLeft => exact served_kept served rfl rfl nofun

theorem run_served (tag : Tag) (capacity : Nat) (moves : List Move) :
    Served (run tag capacity moves).1 (run tag capacity moves).2.reading := by
  have kept : ∀ past exchange after event move, Served past exchange.reading →
      Exchange.move exchange move = some (event, after) → Served (event :: past) after.reading := by
    intro past exchange after event move served moved
    exact served_handling served (move_handling moved)
  have none : Served [] none := ⟨rfl, nofun, nofun⟩
  exact steps_keep kept none moves

def Supplies (stream : Stream) (amount : Nat) : Prop :=
  stream.ended = true ∨ stream.producerPresent = false ∨ (∃ fault, .finish fault ∈ stream.queue) ∨
    amount ≤ stream.queue.length

theorem supplies_took {stream : Stream} {amount : Nat} {object : Option HeapObject} {rest : List Slot}
    (supplies : Supplies stream (amount + 1)) (queue : stream.queue = .item object :: rest) :
    Supplies { stream with queue := rest, delivered := stream.delivered + 1 } amount := by
  rcases supplies with ended | stopped | ⟨fault, last⟩ | enough
  · exact .inl ended
  · exact .inr (.inl stopped)
  · rw [queue] at last
    cases List.mem_cons.mp last with
    | inl same => cases same
    | inr behind => exact .inr (.inr (.inl ⟨fault, behind⟩))
  · rw [queue] at enough
    exact .inr (.inr (.inr (Nat.le_of_succ_le_succ enough)))

theorem supplies_stopped {stream : Stream} {amount : Nat} (supplies : Supplies stream (amount + 1))
    (running : stream.ended = false) (queue : stream.queue = []) : stream.producerPresent = false := by
  rcases supplies with ended | stopped | ⟨fault, last⟩ | enough
  · exact absurd (running.symm.trans ended) Bool.false_ne_true
  · exact stopped
  · rw [queue] at last
    cases last
  · rw [queue] at enough
    exact absurd enough (Nat.not_succ_le_zero amount)

theorem step_ask {past : History} {exchange : Exchange} (demand : Demand)
    (consumer : exchange.stream.consumerPresent = true) (idle : exchange.reading = none) :
    step (past, exchange) (.ask demand) =
      (.asked demand :: past, { exchange with reading := some (Reading.start demand) }) := by
  simp [step, move, idle, consumer]

theorem step_poll {past : History} {exchange : Exchange} {reading : Reading}
    (consumer : exchange.stream.consumerPresent = true) (underway : exchange.reading = some reading)
    (wants : reading.wants = true) :
    step (past, exchange) .poll = ((exchange.poll reading).1 :: past, (exchange.poll reading).2) := by
  simp [step, move, underway, consumer, wants]

theorem step_answer {past : History} {exchange : Exchange} {reading : Reading}
    (underway : exchange.reading = some reading) (done : reading.wants = false) :
    step (past, exchange) .answer =
      (.answered reading reading.answer :: past, { exchange with reading := none }) := by
  simp [step, move, underway, done]

theorem drain_item {stream rest : Stream} {object : Option HeapObject} (amount : Nat)
    (found : stream.poll = (.item object, rest)) :
    stream.drain (amount + 1) = (object :: (rest.drain amount).1, (rest.drain amount).2) := by
  rw [Stream.drain, found]

theorem drain_ended {stream rest : Stream} (amount : Nat) (found : stream.poll = (.ended, rest)) :
    stream.drain (amount + 1) = ([], rest) := by
  rw [Stream.drain, found]

def Drains (stream : Stream) (reading : Reading) (amount : Nat) : Prop :=
  ∀ past : History, ∃ polls since found,
    let drained : Reading := ⟨reading.demand, reading.taken ++ (stream.drain amount).1, found⟩
    (List.replicate polls .poll).foldl step (past, ⟨stream, some reading⟩) =
        (since ++ past, ⟨(stream.drain amount).2, some drained⟩) ∧
      drained.wants = false

theorem drains_item {stream rest : Stream} {reading : Reading} {amount : Nat} {object : Option HeapObject}
    (consumer : stream.consumerPresent = true) (wants : reading.wants = true)
    (found : stream.poll = (.item object, rest)) (others : Drains rest (reading.hear (.item object)) amount) :
    Drains stream reading (amount + 1) := by
  intro past
  obtain ⟨polls, since, heard, polled, done⟩ := others (.polled (.item object) :: past)
  have first : step (past, ⟨stream, some reading⟩) .poll =
      (.polled (.item object) :: past, ⟨rest, some (reading.hear (.item object))⟩) := by
    rw [step_poll consumer rfl wants, Exchange.poll, found]
  have whole : (reading.hear (.item object)).taken ++ (rest.drain amount).1 =
      reading.taken ++ (stream.drain (amount + 1)).1 := by
    rw [drain_item amount found]
    exact List.append_assoc _ _ _
  refine ⟨polls + 1, since ++ [.polled (.item object)], heard, ?_, ?_⟩
  · rw [List.replicate_succ, List.foldl_cons, first, polled, ← whole, drain_item amount found,
      List.append_assoc]
    rfl
  · rw [← whole]
    exact done

theorem drains_ended {stream rest : Stream} {reading : Reading} {amount : Nat}
    (consumer : stream.consumerPresent = true) (wants : reading.wants = true)
    (many : reading.demand ≠ .poll) (found : stream.poll = (.ended, rest)) :
    Drains stream reading (amount + 1) := by
  intro past
  refine ⟨1, [.polled .ended], some .ended, ?_, ?_⟩
  · change step (past, ⟨stream, some reading⟩) .poll = _
    rw [step_poll consumer rfl wants, Exchange.poll, found, drain_ended amount found]
    rfl
  · rw [Reading.wants_many many]
    simp

theorem drains_supplied {stream : Stream} {reading : Reading} {amount : Nat}
    (consumer : stream.consumerPresent = true) (supplies : Supplies stream amount)
    (many : reading.demand ≠ .poll) (limit : reading.demand.limit = reading.taken.length + amount)
    (unheard : reading.heard ≠ some .ended) : Drains stream reading amount := by
  -- induction on what the reading may still take; an end met before that stops it early
  induction amount generalizing stream reading with
  | zero =>
      intro past
      refine ⟨0, [], reading.heard, ?_, ?_⟩
      · simp [Stream.drain]
      · rw [Reading.wants_many many]
        simp [Stream.drain, limit]
  | succ amount ih =>
      have wants : reading.wants = true := by
        refine (Reading.wants_many many reading.taken reading.heard).trans ?_
        simp [limit, unheard]
      cases ended : stream.ended with
      | true => exact drains_ended consumer wants many (Stream.poll_ended ended)
      | false =>
          cases queue : stream.queue with
          | nil =>
              exact drains_ended consumer wants many
                (Stream.poll_stopped ended queue (supplies_stopped supplies ended queue))
          | cons slot rest =>
              cases slot with
              | finish fault => exact drains_ended consumer wants many (Stream.poll_finish ended queue)
              | item object =>
                  refine drains_item consumer wants (Stream.poll_item ended queue) ?_
                  refine ih consumer (supplies_took supplies queue) many ?_ nofun
                  rw [Reading.hear, List.length_append]
                  exact limit.trans (Nat.succ_add_eq_add_succ _ amount).symm

theorem deliver_some {stream : Stream} {limit : Nat} {taken : List (Option HeapObject) × Stream}
    (delivered : stream.deliver limit = some taken) :
    stream.mustWait limit = false ∧ stream.drain limit = taken := by
  obtain ⟨goes, drained⟩ := Option.ite_none_left_eq_some.mp delivered
  exact ⟨Bool.eq_false_iff.mpr goes, Option.some.inj drained⟩

theorem serve_many {stream after : Stream} {demand : Demand} {answer : Answer} (many : demand ≠ .poll)
    (served : stream.serve demand = some (answer, after)) :
    stream.mustWait demand.limit = false ∧ (stream.drain demand.limit).2 = after ∧
      ∀ found, Reading.answer ⟨demand, (stream.drain demand.limit).1, found⟩ = answer := by
  cases demand with
  | poll => exact absurd rfl many
  | next =>
      obtain ⟨_, next, same⟩ := Option.map_eq_some_iff.mp served
      obtain ⟨taken, delivered, rfl⟩ := Option.map_eq_some_iff.mp next
      obtain ⟨rfl, rfl⟩ := Prod.mk.inj same
      obtain ⟨goes, rfl⟩ := deliver_some delivered
      exact ⟨goes, rfl, fun _ => rfl⟩
  | deliver limit =>
      obtain ⟨taken, delivered, same⟩ := Option.map_eq_some_iff.mp served
      obtain ⟨rfl, rfl⟩ := Prod.mk.inj same
      obtain ⟨goes, rfl⟩ := deliver_some delivered
      exact ⟨goes, rfl, fun _ => rfl⟩
  | collect limit =>
      obtain ⟨_, collected, same⟩ := Option.map_eq_some_iff.mp served
      obtain ⟨taken, delivered, rfl⟩ := Option.map_eq_some_iff.mp collected
      obtain ⟨rfl, rfl⟩ := Prod.mk.inj same
      obtain ⟨goes, rfl⟩ := deliver_some delivered
      exact ⟨goes, rfl, fun _ => rfl⟩

theorem demand_served {stream after : Stream} {demand : Demand} {answer : Answer} (past : History)
    (consumer : stream.consumerPresent = true)
    (supplied : ∀ amount, stream.mustWait amount = false → Supplies stream amount)
    (served : stream.serve demand = some (answer, after)) :
    ∃ polls since reading,
      (.ask demand :: (List.replicate polls .poll ++ [.answer])).foldl step (past, ⟨stream, none⟩) =
        (.answered reading answer :: since ++ past, ⟨after, none⟩) := by
  -- Without a move of the producer in between, the polls of a demand come to the call itself.
  have asked : step (past, ⟨stream, none⟩) (.ask demand) =
      (.asked demand :: past, ⟨stream, some (Reading.start demand)⟩) := step_ask demand consumer rfl
  by_cases many : demand = .poll
  · subst many
    obtain ⟨rfl, rfl⟩ := Prod.mk.inj (Option.some.inj served)
    have polled : step (.asked .poll :: past, ⟨stream, some (Reading.start .poll)⟩) .poll =
        (.polled stream.poll.1 :: .asked .poll :: past,
         ⟨stream.poll.2, some ((Reading.start .poll).hear stream.poll.1)⟩) := step_poll consumer rfl rfl
    refine ⟨1, [.polled stream.poll.1, .asked .poll], (Reading.start .poll).hear stream.poll.1, ?_⟩
    rw [List.foldl_cons, asked, List.foldl_append]
    change step (step _ .poll) .answer = _
    rw [polled]
    exact step_answer rfl rfl
  · obtain ⟨goes, rfl, answers⟩ := serve_many many served
    have drains : Drains stream (Reading.start demand) demand.limit :=
      drains_supplied consumer (supplied _ goes) many (Nat.zero_add _).symm nofun
    obtain ⟨polls, since, found, polled, done⟩ := drains (.asked demand :: past)
    refine ⟨polls, since ++ [.asked demand], ⟨demand, (stream.drain demand.limit).1, found⟩, ?_⟩
    rw [List.foldl_cons, asked, List.foldl_append, polled, ← answers found, List.cons_append,
      List.append_assoc]
    exact step_answer rfl done

end Exchange

end HeapCensus
