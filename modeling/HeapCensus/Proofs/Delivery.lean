import HeapCensus.Proofs.Demands

set_option autoImplicit false

namespace HeapCensus

namespace Exchange

theorem closing_kept {past : History} {event : Event} (silent : event.close? = none) :
    closing (event :: past) = closing past := by
  rw [closing_cons, silent, Option.or_none]

theorem closing_first {past : History} {event : Event} {fault : Option String}
    (opened : closing past = none) (closes : event.close? = some fault) :
    closing (event :: past) = some fault := by
  rw [closing_cons, opened, closes, Option.none_or]

theorem closing_again {past : History} (event : Event) (closed : (closing past).isSome = true) :
    closing (event :: past) = closing past := by
  rw [closing_cons, Option.or_of_isSome closed]

theorem closed_effect {past : History} {stream after : Stream} {event : Event}
    (closed : stream.closed = (closing past).isSome) (effect : Effect stream event after) :
    after.closed = (closing (event :: past)).isSome := by
  cases effect with
  | closed offer fault closes =>
      rw [closing_cons, Option.isSome_or]
      simp [Event.close?, closes]
  | closedUnheard offer fault closes =>
      rw [closing_cons, Option.isSome_or]
      simp [Event.close?, closes]
  | closedAgain offer fault closes producer already =>
      rw [closing_again _ (closed.symm.trans already)]
      exact closed
  | pushed | refused | producerLeft | asked | answered | took | finished | stopped | foundNothing | spent
  | consumerLeft =>
      rw [closing_kept rfl]
      exact closed

/-- The slots that were put into the queue: the accepted items, and behind them at most one end slot. -/
def Sealed (past : History) (closed : Bool) : Prop :=
  ∃ last : Option (Option String),
    sent past = (accepted past).map .item ++ (last.map .finish).toList ∧
      (last.isSome = true → closed = true)

theorem sealed_open {past : History} {closed : Bool} (sealed : Sealed past closed) (opened : closed = false) :
    sent past = (accepted past).map .item := by
  obtain ⟨last, slots, closes⟩ := sealed
  cases last with
  | none => exact slots.trans (List.append_nil _)
  | some fault => exact absurd (closes rfl) (opened ▸ Bool.false_ne_true)

theorem sealed_kept {past : History} {closed : Bool} {event : Event} (sealed : Sealed past closed)
    (nothing : event.sent = []) (none : event.accepted = []) : Sealed (event :: past) closed := by
  obtain ⟨last, slots, closes⟩ := sealed
  refine ⟨last, ?_, closes⟩
  rw [sent_cons, accepted_cons, nothing, none, List.append_nil, List.append_nil]
  exact slots

theorem accepted_closing {offer : Offer} {fault : Option String} (closes : offer.close? = some fault)
    (reply : Bool) (slots : List Slot) : Event.accepted (.offered offer reply slots) = [] := by
  cases offer with
  | push object => cases closes
  | finish => rfl
  | fail message => rfl

theorem sealed_effect {past : History} {stream after : Stream} {event : Event}
    (sealed : Sealed past stream.closed) (effect : Effect stream event after) :
    Sealed (event :: past) after.closed := by
  cases effect with
  | pushed object producer opened =>
      refine ⟨none, ?_, fun held => by cases held⟩
      rw [sent_cons, accepted_cons, sealed_open sealed opened]
      simp [Event.sent, Event.accepted]
  | closed offer fault closes producer opened =>
      refine ⟨some fault, ?_, fun _ => rfl⟩
      rw [sent_cons, accepted_cons, sealed_open sealed opened, accepted_closing closes, List.append_nil]
      rfl
  | closedUnheard offer fault closes =>
      obtain ⟨last, slots, _⟩ := sealed_kept sealed rfl (accepted_closing closes true [])
      exact ⟨last, slots, fun _ => rfl⟩
  | closedAgain offer fault closes => exact sealed_kept sealed rfl (accepted_closing closes true [])
  | refused | producerLeft | asked | answered | took | finished | stopped | foundNothing | spent
  | consumerLeft => exact sealed_kept sealed rfl rfl

/-- The queue of a stream that a consumer has not ended: what was accepted and not handed over yet, and the
end slot once the stream is closed. -/
def Waiting (past : History) (queue : List Slot) : Prop :=
  ∃ waiting, queue = waiting.map .item ++ ((closing past).map .finish).toList ∧
    accepted past = handed past ++ waiting

theorem waiting_kept {past : History} {queue : List Slot} {event : Event} (waiting : Waiting past queue)
    (none : event.accepted = []) (nothing : event.handed = [])
    (same : closing (event :: past) = closing past) : Waiting (event :: past) queue := by
  obtain ⟨items, slots, whole⟩ := waiting
  refine ⟨items, same.symm ▸ slots, ?_⟩
  rw [accepted_cons, handed_cons, none, nothing, List.append_nil, List.append_nil]
  exact whole

theorem waiting_nil {past : History} (waiting : Waiting past []) :
    closing past = none ∧ accepted past = handed past := by
  obtain ⟨items, slots, whole⟩ := waiting
  obtain ⟨noItems, noEnd⟩ := List.append_eq_nil_iff.mp slots.symm
  obtain rfl := List.map_eq_nil_iff.mp noItems
  exact ⟨Option.map_eq_none_iff.mp (Option.toList_eq_nil_iff.mp noEnd), whole.trans (List.append_nil _)⟩

theorem waiting_finish {past : History} {fault : Option String} {rest : List Slot}
    (waiting : Waiting past (.finish fault :: rest)) :
    rest = [] ∧ closing past = some fault ∧ accepted past = handed past := by
  obtain ⟨items, slots, whole⟩ := waiting
  cases items with
  | cons first items => cases (List.cons.inj slots).1
  | nil =>
      cases closed : closing past with
      | none => simp [closed] at slots
      | some first =>
          simp [closed] at slots
          exact ⟨slots.2, congrArg some slots.1.symm, whole.trans (List.append_nil _)⟩

theorem closing_open {past : History} {closed : Bool} (same : closed = (closing past).isSome)
    (opened : closed = false) : closing past = none :=
  Option.isNone_iff_eq_none.mp (Option.isSome_eq_false_iff.mp (same.symm.trans opened))

theorem waiting_pushed {past : History} {queue : List Slot} (waiting : Waiting past queue)
    (opened : closing past = none) (object : Option HeapObject) (slots : List Slot) :
    Waiting (.offered (.push object) true slots :: past) (queue ++ [.item object]) := by
  obtain ⟨items, held, whole⟩ := waiting
  refine ⟨items ++ [object], ?_, ?_⟩
  · rw [held, closing_kept rfl, opened]
    simp
  · rw [accepted_cons, handed_cons, whole]
    simp [Event.accepted, Event.handed]

theorem waiting_closed {past : History} {queue : List Slot} {offer : Offer} {fault : Option String}
    (waiting : Waiting past queue) (opened : closing past = none) (closes : offer.close? = some fault)
    (slots : List Slot) : Waiting (.offered offer true slots :: past) (queue ++ [.finish fault]) := by
  obtain ⟨items, held, whole⟩ := waiting
  have first : closing (.offered offer true slots :: past) = some fault := closing_first opened closes
  refine ⟨items, ?_, ?_⟩
  · rw [held, first, opened]
    simp
  · rw [accepted_cons, handed_cons, accepted_closing closes, whole]
    simp [Event.handed]

theorem waiting_took {past : History} {object : Option HeapObject} {rest : List Slot}
    (waiting : Waiting past (.item object :: rest)) :
    Waiting (.polled (.item object) :: past) rest := by
  obtain ⟨items, slots, whole⟩ := waiting
  cases items with
  | nil => cases closed : closing past <;> simp [closed] at slots
  | cons first items =>
      obtain ⟨same, rest⟩ := List.cons.inj slots
      obtain rfl := Slot.item.inj same
      refine ⟨items, ?_, ?_⟩
      · rw [closing_kept rfl]
        exact rest
      · rw [accepted_cons, handed_cons, whole]
        simp [Event.accepted, Event.handed]

theorem waiting_effect {past : History} {stream after : Stream} {event : Event}
    (closed : stream.closed = (closing past).isSome)
    (waiting : stream.consumerPresent = true → stream.ended = false → Waiting past stream.queue)
    (effect : Effect stream event after) :
    after.consumerPresent = true → after.ended = false → Waiting (event :: past) after.queue := by
  intro consumer running
  cases effect with
  | pushed object producer opened =>
      exact waiting_pushed (waiting consumer running) (closing_open closed opened) object _
  | closed offer fault closes producer opened =>
      exact waiting_closed (waiting consumer running) (closing_open closed opened) closes _
  | closedUnheard offer fault closes producer opened left =>
      exact absurd (left.symm.trans consumer) Bool.false_ne_true
  | closedAgain offer fault closes producer already =>
      exact waiting_kept (waiting consumer running) (accepted_closing closes true []) rfl
        (closing_again _ (closed.symm.trans already))
  | took object rest present unended queue => exact waiting_took (queue ▸ waiting present unended)
  | finished | stopped => cases running
  | spent ended => exact absurd (running.symm.trans ended) Bool.false_ne_true
  | consumerLeft => cases consumer
  | refused | producerLeft | asked | answered | foundNothing =>
      exact waiting_kept (waiting consumer running) rfl rfl (closing_kept rfl)

/-- A stream at its end: everything that was accepted has been handed over, and no more can be sent. -/
structure Spent (past : History) (stream : Stream) : Prop where
  queue : stream.queue = []
  silent : stream.closed = true ∨ stream.producerPresent = false
  whole : accepted past = handed past

theorem spent_silent {past : History} {stream after : Stream} {event : Event} (spent : Spent past stream)
    (none : event.accepted = []) (nothing : event.handed = [])
    (queue : after.queue = stream.queue ∨ after.queue = [])
    (closed : stream.closed = true → after.closed = true)
    (left : stream.producerPresent = false → after.producerPresent = false) :
    Spent (event :: past) after := by
  refine ⟨?_, spent.silent.imp closed left, ?_⟩
  · cases queue with
    | inl same => exact same.trans spent.queue
    | inr gone => exact gone
  · rw [accepted_cons, handed_cons, none, nothing, spent.whole]

theorem spent_effect {past : History} {stream after : Stream} {event : Event}
    (closed : stream.closed = (closing past).isSome)
    (waiting : stream.consumerPresent = true → stream.ended = false → Waiting past stream.queue)
    (spent : stream.ended = true → Spent past stream) (effect : Effect stream event after) :
    after.ended = true → Spent (event :: past) after := by
  intro ended
  -- the end was seen after a close or the producer's leaving, so nothing can be put in any more
  have silent : stream.ended = true → stream.producerPresent = true → stream.closed = true := by
    intro ended producer
    cases (spent ended).silent with
    | inl closed => exact closed
    | inr left => exact absurd (left.symm.trans producer) Bool.false_ne_true
  cases effect with
  | pushed object producer opened =>
      exact absurd (opened.symm.trans (silent ended producer)) Bool.false_ne_true
  | closed offer fault closes producer opened =>
      exact absurd (opened.symm.trans (silent ended producer)) Bool.false_ne_true
  | closedUnheard offer fault closes producer opened =>
      exact absurd (opened.symm.trans (silent ended producer)) Bool.false_ne_true
  | closedAgain offer fault closes =>
      exact spent_silent (spent ended) (accepted_closing closes true []) rfl (.inl rfl) id id
  | took object rest present running => exact absurd (running.symm.trans ended) Bool.false_ne_true
  | foundNothing present running => exact absurd (running.symm.trans ended) Bool.false_ne_true
  | finished fault rest present running queue =>
      obtain ⟨last, first, whole⟩ := waiting_finish (queue ▸ waiting present running)
      refine ⟨last, .inl (closed.trans (congrArg Option.isSome first)), ?_⟩
      rw [accepted_cons, handed_cons, whole]
      rfl
  | stopped present running queue left =>
      obtain ⟨_, whole⟩ := waiting_nil (queue ▸ waiting present running)
      refine ⟨queue, .inr left, ?_⟩
      rw [accepted_cons, handed_cons, whole]
      rfl
  | producerLeft => exact spent_silent (spent ended) rfl rfl (.inl rfl) id fun _ => rfl
  | consumerLeft => exact spent_silent (spent ended) rfl rfl (.inr rfl) id id
  | refused | asked | answered | spent => exact spent_silent (spent ended) rfl rfl (.inl rfl) id id

/-- What a consumer can be told of a fault: nothing before the end, and then what the first close said, or
that there was none. -/
def faultOf (tag : Tag) (past : History) (ended : Bool) : Option String :=
  if ended then (closing past).getD (some (Stream.stoppedFault tag)) else none

theorem fault_kept {tag : Tag} {past : History} {ended : Bool} {event : Event}
    (same : ended = true → closing (event :: past) = closing past) :
    faultOf tag (event :: past) ended = faultOf tag past ended := by
  cases ended with
  | false => rfl
  | true => rw [faultOf, faultOf, same rfl]

theorem closing_spent {past : History} {stream after : Stream} {event : Event}
    (closed : stream.closed = (closing past).isSome) (spent : stream.ended = true → Spent past stream)
    (effect : Effect stream event after) (ended : stream.ended = true) :
    closing (event :: past) = closing past := by
  cases closes : event.close? with
  | none => exact closing_kept closes
  | some fault =>
      cases (spent ended).silent with
      | inl already => exact closing_again event (closed.symm.trans already)
      | inr left => exact absurd (left.symm.trans (producer_effect effect closes)) Bool.false_ne_true

theorem fault_effect {tag : Tag} {past : History} {stream after : Stream} {event : Event}
    (closed : stream.closed = (closing past).isSome) (named : stream.tag = tag)
    (waiting : stream.consumerPresent = true → stream.ended = false → Waiting past stream.queue)
    (spent : stream.ended = true → Spent past stream) (fault : stream.fault = faultOf tag past stream.ended)
    (effect : Effect stream event after) : after.fault = faultOf tag (event :: past) after.ended := by
  have kept := closing_spent closed spent effect
  cases effect with
  | finished told rest present running queue =>
      obtain ⟨_, first, _⟩ := waiting_finish (queue ▸ waiting present running)
      rw [faultOf, if_pos rfl, closing_kept rfl, first]
      rfl
  | stopped present running queue =>
      obtain ⟨opened, _⟩ := waiting_nil (queue ▸ waiting present running)
      rw [faultOf, if_pos rfl, closing_kept rfl, opened, named]
      rfl
  | pushed | refused | closed | closedUnheard | closedAgain | producerLeft | asked | answered | took
  | foundNothing | spent | consumerLeft => exact fault.trans (fault_kept kept).symm

/-- What the history of an exchange says about its stream. -/
structure Follows (tag : Tag) (past : History) (stream : Stream) : Prop where
  named : stream.tag = tag
  closed : stream.closed = (closing past).isSome
  delivered : stream.delivered = (handed past).length
  sealed : Sealed past stream.closed
  heard : stream.ended = true ↔ .polled .ended ∈ past
  waiting : stream.consumerPresent = true → stream.ended = false → Waiting past stream.queue
  spent : stream.ended = true → Spent past stream
  fault : stream.fault = faultOf tag past stream.ended

theorem follows_start (tag : Tag) (capacity : Nat) : Follows tag [] (start tag capacity).stream where
  named := rfl
  closed := rfl
  delivered := rfl
  sealed := ⟨none, rfl, fun held => by cases held⟩
  heard := by simp [start, Stream.new]
  waiting _ _ := ⟨[], rfl, rfl⟩
  spent ended := by cases ended
  fault := rfl

theorem follows_effect {tag : Tag} {past : History} {stream after : Stream} {event : Event}
    (follows : Follows tag past stream) (effect : Effect stream event after) :
    Follows tag (event :: past) after where
  named := (tag_effect effect).trans follows.named
  closed := closed_effect follows.closed effect
  delivered := by
    rw [delivered_effect effect, handed_cons, List.length_append, follows.delivered]
  sealed := sealed_effect follows.sealed effect
  heard := by
    rw [ended_effect effect, follows.heard, List.mem_cons, eq_comm]
  waiting := waiting_effect follows.closed follows.waiting effect
  spent := spent_effect follows.closed follows.waiting follows.spent effect
  fault := fault_effect follows.closed follows.named follows.waiting follows.spent follows.fault effect

theorem run_follows (tag : Tag) (capacity : Nat) (moves : List Move) :
    Follows tag (run tag capacity moves).1 (run tag capacity moves).2.stream := by
  have kept : ∀ past exchange after event move, Follows tag past exchange.stream →
      Exchange.move exchange move = some (event, after) → Follows tag (event :: past) after.stream := by
    intro past exchange after event move follows moved
    exact follows_effect follows (move_effect moved)
  exact steps_keep kept (follows_start tag capacity) moves

theorem waiting_buffered {past : History} {stream : Stream} (waiting : Waiting past stream.queue) :
    handed past ++ stream.buffered = accepted past := by
  obtain ⟨items, slots, whole⟩ := waiting
  have buffered : stream.buffered = items := by
    rw [Stream.buffered, slots, List.filterMap_append, List.filterMap_map]
    cases closed : closing past <;> simp [Function.comp_def, Slot.item?]
  rw [buffered]
  exact whole.symm

theorem handed_over_once (tag : Tag) (capacity : Nat) (moves : List Move) :
    let past := (run tag capacity moves).1
    let exchange := (run tag capacity moves).2
    (exchange.stream.consumerPresent = true → handed past ++ exchange.stream.buffered = accepted past) ∧
      exchange.stream.delivered = (handed past).length ∧
      (.polled .ended ∈ past → handed past = accepted past) ∧
      handed past = received past ++ inHand exchange.reading ∧
      ∀ reading answer, .answered reading answer ∈ past → reading.Tells answer := by
  intro past exchange
  have follows : Follows tag past exchange.stream := run_follows tag capacity moves
  have served : Served past exchange.reading := run_served tag capacity moves
  refine ⟨?_, follows.delivered, ?_, served.handed, served.told⟩
  · intro consumer
    cases ended : exchange.stream.ended with
    | true =>
        have spent := follows.spent ended
        rw [Stream.buffered, spent.queue]
        exact (List.append_nil _).trans spent.whole.symm
    | false => exact waiting_buffered (follows.waiting consumer ended)
  · intro heard
    exact (follows.spent (follows.heard.mpr heard)).whole.symm

-- The fault waits for room; the null counts as delivered, and the demand ends with the stream.
example :
    (run ⟨1⟩ 0 [.offer (.push none), .offer (.fail "gone"), .ask (.deliver 2), .poll, .offer (.fail "gone"),
      .poll, .answer]).1.head? = some (.answered ⟨.deliver 2, [none], some .ended⟩ (.delivered 1)) := by
  decide

theorem poll_ends {tag : Tag} {past : History} {stream : Stream} (follows : Follows tag past stream)
    (consumer : stream.consumerPresent = true) :
    stream.poll.1 = .ended ↔
      stream.ended = true ∨ (∃ fault rest, stream.queue = .finish fault :: rest) ∨
        (stream.queue = [] ∧ stream.producerPresent = false ∧ closing past = none) := by
  cases ended : stream.ended with
  | true => simp [Stream.poll_ended ended]
  | false =>
      cases queue : stream.queue with
      | nil =>
          have opened := (waiting_nil (queue ▸ follows.waiting consumer ended)).1
          cases producer : stream.producerPresent with
          | true => simp [Stream.poll_nothing ended queue producer]
          | false => simp [Stream.poll_stopped ended queue producer, opened]
      | cons slot rest =>
          cases slot with
          | item object => simp [Stream.poll_item ended queue]
          | finish fault => simp [Stream.poll_finish ended queue]

theorem follows_supplies {tag : Tag} {past : History} {stream : Stream} (follows : Follows tag past stream)
    (consumer : stream.consumerPresent = true) {amount : Nat} (goes : stream.mustWait amount = false) :
    Supplies stream amount := by
  cases ended : stream.ended with
  | true => exact .inl ended
  | false =>
      cases producer : stream.producerPresent with
      | false => exact .inr (.inl producer)
      | true =>
          cases closed : stream.closed with
          | true =>
              obtain ⟨items, slots, _⟩ := follows.waiting consumer ended
              obtain ⟨fault, first⟩ := Option.isSome_iff_exists.mp (follows.closed.symm.trans closed)
              refine .inr (.inr (.inl ⟨fault, ?_⟩))
              rw [slots, first]
              simp
          | false =>
              refine .inr (.inr (.inr ?_))
              simpa [Stream.mustWait, ended, producer, closed] using goes

theorem run_serve {tag : Tag} {capacity : Nat} {moves : List Move} {demand : Demand} {answer : Answer}
    {after : Stream} (consumer : (run tag capacity moves).2.stream.consumerPresent = true)
    (idle : (run tag capacity moves).2.reading = none)
    (served : (run tag capacity moves).2.stream.serve demand = some (answer, after)) :
    ∃ polls since reading,
      run tag capacity (moves ++ .ask demand :: (List.replicate polls .poll ++ [.answer])) =
        (.answered reading answer :: since ++ (run tag capacity moves).1, ⟨after, none⟩) := by
  have follows := run_follows tag capacity moves
  have whole : run tag capacity moves =
      ((run tag capacity moves).1, ⟨(run tag capacity moves).2.stream, none⟩) := by
    rw [← idle]
  obtain ⟨polls, since, reading, called⟩ :=
    demand_served (run tag capacity moves).1 consumer (fun _ => follows_supplies follows consumer) served
  refine ⟨polls, since, reading, ?_⟩
  rw [run, List.foldl_append, ← called, ← whole]
  rfl

end Exchange

def Demand.nothing : Demand → Answer
  | .poll => .polled .ended
  | .next => .next none
  | .deliver _ => .delivered 0
  | .collect _ => .collected []

namespace Stream

theorem deliver_ended {stream : Stream} (ended : stream.ended = true) (limit : Nat) :
    stream.deliver limit = some ([], stream) := by
  have goes : stream.mustWait limit = false := by rw [mustWait, ended]; rfl
  rw [deliver, if_neg (goes ▸ Bool.false_ne_true)]
  cases limit with
  | zero => rfl
  | succ limit => rw [Exchange.drain_ended limit (poll_ended ended)]

theorem serve_ended {stream : Stream} (ended : stream.ended = true) (demand : Demand) :
    stream.serve demand = some (demand.nothing, stream) := by
  cases demand with
  | poll =>
      rw [serve, poll_ended ended]
      rfl
  | next =>
      rw [serve, next, deliver_ended ended]
      rfl
  | deliver limit =>
      rw [serve, deliver_ended ended]
      rfl
  | collect limit =>
      rw [serve, collect, deliver_ended ended]
      rfl

end Stream

namespace Exchange

theorem ended_stays {stream after : Stream} {event : Event} (ended : stream.ended = true)
    (effect : Effect stream event after) :
    after.ended = true ∧ after.fault = stream.fault ∧ after.delivered = stream.delivered ∧
      ∀ found, event = .polled found → found = .ended := by
  cases effect with
  | took object rest present running => exact absurd (running.symm.trans ended) Bool.false_ne_true
  | finished fault rest present running => exact absurd (running.symm.trans ended) Bool.false_ne_true
  | stopped present running => exact absurd (running.symm.trans ended) Bool.false_ne_true
  | foundNothing present running => exact absurd (running.symm.trans ended) Bool.false_ne_true
  | spent => exact ⟨ended, rfl, rfl, fun _ same => (Event.polled.inj same).symm⟩
  | pushed | refused | closed | closedUnheard | closedAgain | producerLeft | asked | answered | consumerLeft =>
      exact ⟨ended, rfl, rfl, nofun⟩

structure Barren (reading : Reading) : Prop where
  taken : reading.taken = []
  heard : ∀ found, reading.heard = some found → found = .ended

theorem barren_answer {reading : Reading} (barren : Barren reading) (done : reading.wants = false) :
    reading.answer = reading.demand.nothing := by
  obtain ⟨demand, taken, heard⟩ := reading
  obtain rfl : taken = [] := barren.taken
  cases demand with
  | poll =>
      cases heard with
      | none => cases done
      | some found =>
          obtain rfl := barren.heard found rfl
          rfl
  | next | deliver | collect => rfl

structure Concluded (ending : Stream) (since : History) (exchange : Exchange) : Prop where
  ended : exchange.stream.ended = true
  fault : exchange.stream.fault = ending.fault
  delivered : exchange.stream.delivered = ending.delivered
  barren : ∀ reading, exchange.reading = some reading → Barren reading
  polled : ∀ found, .polled found ∈ since → found = .ended
  answered : ∀ reading answer, .answered reading answer ∈ since → answer = reading.demand.nothing

theorem barren_handling {underway after : Option Reading} {event : Event}
    (barren : ∀ reading, underway = some reading → Barren reading)
    (ended : ∀ found, event = .polled found → found = .ended) (handling : Handling underway event after) :
    ∀ reading, after = some reading → Barren reading := by
  intro reading same
  cases handling with
  | asked demand =>
      cases same
      exact ⟨rfl, nofun⟩
  | polled before found =>
      obtain rfl := ended found rfl
      cases same
      refine ⟨?_, fun _ heard => (Option.some.inj heard).symm⟩
      rw [Reading.hear, (barren before rfl).taken]
      rfl
  | answered before done => cases same
  | offered | producerLeft | consumerLeft => exact barren reading same

theorem answered_handling {underway after : Option Reading} {event : Event}
    (barren : ∀ reading, underway = some reading → Barren reading)
    (handling : Handling underway event after) :
    ∀ reading answer, event = .answered reading answer → answer = reading.demand.nothing := by
  intro reading answer same
  cases handling with
  | answered before done =>
      cases same
      exact barren_answer (barren reading rfl) done
  | offered | producerLeft | asked | polled | consumerLeft => cases same

theorem concluded_move {ending : Stream} {since : History} {exchange after : Exchange} {event : Event}
    {move : Move} (concluded : Concluded ending since exchange)
    (moved : exchange.move move = some (event, after)) : Concluded ending (event :: since) after := by
  obtain ⟨ended, fault, delivered, found⟩ := ended_stays concluded.ended (move_effect moved)
  have handling := move_handling moved
  refine ⟨ended, fault.trans concluded.fault, delivered.trans concluded.delivered,
    barren_handling concluded.barren found handling, ?_, ?_⟩
  · intro result member
    cases List.mem_cons.mp member with
    | inl same => exact found result same.symm
    | inr before => exact concluded.polled result before
  · intro reading answer member
    cases List.mem_cons.mp member with
    | inl same => exact answered_handling concluded.barren handling reading answer same.symm
    | inr before => exact concluded.answered reading answer before

theorem concluded_steps {exchange : Exchange} (ended : exchange.stream.ended = true)
    (idle : exchange.reading = none) (later : List Move) :
    Concluded exchange.stream (later.foldl step ([], exchange)).1 (later.foldl step ([], exchange)).2 := by
  have barren : ∀ reading, exchange.reading = some reading → Barren reading := by
    intro reading underway
    cases idle.symm.trans underway
  exact steps_keep (fun _ _ _ _ _ => concluded_move) ⟨ended, rfl, rfl, barren, nofun, nofun⟩ later

theorem ends_once (tag : Tag) (capacity : Nat) (moves : List Move) :
    let past := (run tag capacity moves).1
    let exchange := (run tag capacity moves).2
    let stream := exchange.stream
    -- One end slot at most, behind every item; after the first close no offer changes anything.
    (∃ last : Option (Option String), sent past = (accepted past).map .item ++ (last.map .finish).toList) ∧
      (closing past ≠ none →
        (∀ object, stream.push object = some (false, stream)) ∧
          ∀ fault, stream.close fault = some stream) ∧
      -- When a poll is told the end.
      (stream.consumerPresent = true →
        (stream.poll.1 = .ended ↔
          stream.ended = true ∨ (∃ fault rest, stream.queue = .finish fault :: rest) ∨
            (stream.queue = [] ∧ stream.producerPresent = false ∧ closing past = none))) ∧
      (stream.ended = true ↔ .polled .ended ∈ past) ∧
      -- The fault, and every call from the end on.
      (stream.ended = false → stream.fault = none) ∧
      (stream.ended = true → stream.fault = (closing past).getD (some (Stream.stoppedFault tag))) ∧
      (stream.ended = true → ∀ demand, stream.serve demand = some (demand.nothing, stream)) ∧
      (stream.ended = true → exchange.reading = none → ∀ later : List Move,
        Concluded stream (later.foldl step ([], exchange)).1 (later.foldl step ([], exchange)).2) := by
  intro past exchange stream
  have follows : Follows tag past stream := run_follows tag capacity moves
  obtain ⟨last, slots, _⟩ := follows.sealed
  refine ⟨⟨last, slots⟩, ?_, poll_ends follows, follows.heard, ?_, ?_, Stream.serve_ended,
    concluded_steps⟩
  · intro closes
    have closed : stream.closed = true := by
      rw [follows.closed]
      exact Option.isSome_iff_ne_none.mpr closes
    exact ⟨Stream.push_closed closed, Stream.close_closed closed⟩
  · intro running
    rw [follows.fault, faultOf, if_neg (running ▸ Bool.false_ne_true)]
  · intro ended
    rw [follows.fault, faultOf, if_pos ended]

example :
    (run ⟨1⟩ 0 [.offer (.fail "gone"), .offer .finish, .dropProducer, .ask .next, .poll,
      .answer]).2.stream.fault = some "gone" := by
  decide

end Exchange

end HeapCensus
