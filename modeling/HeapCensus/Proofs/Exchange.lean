import HeapCensus.Stream

set_option autoImplicit false

namespace HeapCensus

def Offer.close? : Offer → Option (Option String)
  | .push _ => none
  | .finish => some none
  | .fail message => some (some message)

def Polled.item? : Polled → Option (Option HeapObject)
  | .item object => some object
  | _ => none

def Slot.item? : Slot → Option (Option HeapObject)
  | .item object => some object
  | .finish _ => none

namespace Stream

def buffered (stream : Stream) : List (Option HeapObject) := stream.queue.filterMap Slot.item?

variable {stream : Stream}

theorem send_heard (consumer : stream.consumerPresent = true) (slot : Slot) :
    stream.send slot = { stream with queue := stream.queue ++ [slot] } :=
  if_pos consumer

theorem send_unheard (left : stream.consumerPresent = false) (slot : Slot) : stream.send slot = stream :=
  if_neg (left ▸ Bool.false_ne_true)

theorem push_closed (closed : stream.closed = true) (object : Option HeapObject) :
    stream.push object = some (false, stream) :=
  if_pos closed

theorem push_open (closed : stream.closed = false) (room : stream.isFull = false)
    (object : Option HeapObject) :
    stream.push object = some (stream.consumerPresent, stream.send (.item object)) := by
  rw [push, if_neg (closed ▸ Bool.false_ne_true), if_neg (room ▸ Bool.false_ne_true)]

theorem push_full (closed : stream.closed = false) (full : stream.isFull = true)
    (object : Option HeapObject) : stream.push object = none := by
  rw [push, if_neg (closed ▸ Bool.false_ne_true), if_pos full]

theorem close_closed (closed : stream.closed = true) (fault : Option String) :
    stream.close fault = some stream :=
  if_pos closed

theorem close_open (closed : stream.closed = false) (room : stream.isFull = false) (fault : Option String) :
    stream.close fault = some { stream.send (.finish fault) with closed := true } := by
  rw [close, if_neg (closed ▸ Bool.false_ne_true), if_neg (room ▸ Bool.false_ne_true)]

theorem close_full (closed : stream.closed = false) (full : stream.isFull = true) (fault : Option String) :
    stream.close fault = none := by
  rw [close, if_neg (closed ▸ Bool.false_ne_true), if_pos full]

theorem accept_close {offer : Offer} {fault : Option String} (closes : offer.close? = some fault)
    (stream : Stream) : stream.accept offer = (stream.close fault).map fun closed => (true, closed) := by
  cases offer with
  | push object => cases closes
  | finish =>
      obtain rfl := Option.some.inj closes
      rfl
  | fail message =>
      obtain rfl := Option.some.inj closes
      rfl

theorem poll_ended (ended : stream.ended = true) : stream.poll = (.ended, stream) := if_pos ended

theorem poll_item {object : Option HeapObject} {rest : List Slot} (running : stream.ended = false)
    (queue : stream.queue = .item object :: rest) :
    stream.poll = (.item object, { stream with queue := rest, delivered := stream.delivered + 1 }) := by
  rw [poll, if_neg (running ▸ Bool.false_ne_true), queue]

theorem poll_finish {fault : Option String} {rest : List Slot} (running : stream.ended = false)
    (queue : stream.queue = .finish fault :: rest) :
    stream.poll = (.ended, { stream with queue := rest, ended := true, fault := fault }) := by
  rw [poll, if_neg (running ▸ Bool.false_ne_true), queue]

theorem poll_empty (running : stream.ended = false) (queue : stream.queue = []) :
    stream.poll =
      if stream.producerPresent then (.nothing, stream)
      else (.ended, { stream with ended := true, fault := some (stoppedFault stream.tag) }) := by
  rw [poll, if_neg (running ▸ Bool.false_ne_true)]
  split
  case h_1 held => cases queue.symm.trans held
  case h_2 held => cases queue.symm.trans held
  case h_3 => rfl

theorem poll_nothing (running : stream.ended = false) (queue : stream.queue = [])
    (producer : stream.producerPresent = true) : stream.poll = (.nothing, stream) :=
  (poll_empty running queue).trans (if_pos producer)

theorem poll_stopped (running : stream.ended = false) (queue : stream.queue = [])
    (stopped : stream.producerPresent = false) :
    stream.poll = (.ended, { stream with ended := true, fault := some (stoppedFault stream.tag) }) :=
  (poll_empty running queue).trans (if_neg (stopped ▸ Bool.false_ne_true))

end Stream

/-- What a consumer can ask of a stream. All but a poll wait while there is nothing to take. -/
inductive Demand where
  | poll
  | next
  | deliver (limit : Nat)
  | collect (limit : Nat)
  deriving DecidableEq, Repr

inductive Answer where
  | polled (result : Polled)
  | next (item : Option (Option HeapObject))
  | delivered (amount : Nat)
  | collected (objects : List HeapObject)
  deriving DecidableEq, Repr

def Demand.limit : Demand → Nat
  | .poll => 1
  | .next => 1
  | .deliver limit => limit
  | .collect limit => limit

structure Reading where
  demand : Demand
  taken : List (Option HeapObject)
  heard : Option Polled
  deriving DecidableEq, Repr

namespace Reading

def start (demand : Demand) : Reading := ⟨demand, [], none⟩

def hear (reading : Reading) (found : Polled) : Reading :=
  { reading with taken := reading.taken ++ found.item?.toList, heard := some found }

def wants (reading : Reading) : Bool :=
  match reading.demand with
  | .poll => reading.heard.isNone
  | _ => reading.taken.length < reading.demand.limit && reading.heard ≠ some .ended

def answer (reading : Reading) : Answer :=
  match reading.demand with
  | .poll => .polled (reading.heard.getD .nothing)
  | .next => .next reading.taken.head?
  | .deliver _ => .delivered reading.taken.length
  | .collect _ => .collected (reading.taken.filterMap id)

end Reading

structure Exchange where
  stream : Stream
  -- The consumer's demand under way.
  reading : Option Reading

namespace Exchange

inductive Move where
  | offer (offer : Offer)
  | dropProducer
  | ask (demand : Demand)
  -- One poll of the demand under way.
  | poll
  | answer
  | dropConsumer
  deriving DecidableEq, Repr

inductive Event where
  -- An offer with its reply and the slots that it put into the queue.
  | offered (offer : Offer) (reply : Bool) (slots : List Slot)
  | producerLeft
  | asked (demand : Demand)
  | polled (found : Polled)
  | answered (reading : Reading) (answer : Answer)
  | consumerLeft
  deriving DecidableEq, Repr

/-- The newest event stands in front. -/
abbrev History := List Event

def start (tag : Tag) (capacity : Nat) : Exchange := ⟨Stream.new tag capacity, none⟩

def offer (exchange : Exchange) (offer : Offer) : Option (Event × Exchange) :=
  (exchange.stream.accept offer).map fun accepted =>
    (.offered offer accepted.1 (accepted.2.queue.drop exchange.stream.queue.length),
     { exchange with stream := accepted.2 })

def poll (exchange : Exchange) (reading : Reading) : Event × Exchange :=
  let polled := exchange.stream.poll
  (.polled polled.1, ⟨polled.2, some (reading.hear polled.1)⟩)

/-- None: an end that is gone makes no move, an offer may have to wait, and a demand is polled and answered
in its turn. -/
def move (exchange : Exchange) : Move → Option (Event × Exchange)
  | .offer offer => if exchange.stream.producerPresent then exchange.offer offer else none
  | .dropProducer =>
      if exchange.stream.producerPresent then
        some (.producerLeft, { exchange with stream := exchange.stream.dropProducer })
      else none
  | .ask demand =>
      if exchange.stream.consumerPresent && exchange.reading.isNone then
        some (.asked demand, { exchange with reading := some (Reading.start demand) })
      else none
  | .poll =>
      match exchange.reading with
      | some reading =>
          if exchange.stream.consumerPresent && reading.wants then some (exchange.poll reading) else none
      | none => none
  | .answer =>
      match exchange.reading with
      | some reading =>
          if reading.wants then none
          else some (.answered reading reading.answer, { exchange with reading := none })
      | none => none
  | .dropConsumer =>
      if exchange.stream.consumerPresent && exchange.reading.isNone then
        some (.consumerLeft, { exchange with stream := exchange.stream.dropConsumer })
      else none

def step (state : History × Exchange) (move : Move) : History × Exchange :=
  match state.2.move move with
  | some (event, after) => (event :: state.1, after)
  | none => state

def run (tag : Tag) (capacity : Nat) (moves : List Move) : History × Exchange :=
  moves.foldl step ([], start tag capacity)

namespace Event

def accepted : Event → List (Option HeapObject)
  | .offered (.push object) true _ => [object]
  | _ => []

def sent : Event → List Slot
  | .offered _ _ slots => slots
  | _ => []

def handed : Event → List (Option HeapObject)
  | .polled (.item object) => [object]
  | _ => []

def received : Event → List (Option HeapObject)
  | .answered reading _ => reading.taken
  | _ => []

def close? : Event → Option (Option String)
  | .offered offer _ _ => offer.close?
  | _ => none

end Event

def gather {α : Type} (part : Event → List α) (past : History) : List α := past.reverse.flatMap part

def accepted (past : History) : List (Option HeapObject) := gather Event.accepted past

def sent (past : History) : List Slot := gather Event.sent past

def handed (past : History) : List (Option HeapObject) := gather Event.handed past

def received (past : History) : List (Option HeapObject) := gather Event.received past

/-- How the producer closed the stream at first. -/
def closing (past : History) : Option (Option String) := (past.reverse.filterMap Event.close?).head?

theorem gather_cons {α : Type} (part : Event → List α) (event : Event) (past : History) :
    gather part (event :: past) = gather part past ++ part event := by
  simp [gather]

theorem accepted_cons (event : Event) (past : History) :
    accepted (event :: past) = accepted past ++ event.accepted :=
  gather_cons Event.accepted event past

theorem sent_cons (event : Event) (past : History) : sent (event :: past) = sent past ++ event.sent :=
  gather_cons Event.sent event past

theorem handed_cons (event : Event) (past : History) :
    handed (event :: past) = handed past ++ event.handed :=
  gather_cons Event.handed event past

theorem received_cons (event : Event) (past : History) :
    received (event :: past) = received past ++ event.received :=
  gather_cons Event.received event past

theorem closing_cons (event : Event) (past : History) :
    closing (event :: past) = (closing past).or event.close? := by
  cases closed : event.close? <;> simp [closing, closed]

/-- What an event does to the stream, and what makes it possible. -/
inductive Effect : Stream → Event → Stream → Prop
  | pushed (stream : Stream) (object : Option HeapObject) :
      stream.producerPresent = true → stream.closed = false → stream.consumerPresent = true →
      Effect stream (.offered (.push object) true [.item object])
        { stream with queue := stream.queue ++ [.item object] }
  | refused (stream : Stream) (object : Option HeapObject) :
      stream.producerPresent = true → (stream.closed = true ∨ stream.consumerPresent = false) →
      Effect stream (.offered (.push object) false []) stream
  | closed (stream : Stream) (offer : Offer) (fault : Option String) :
      offer.close? = some fault → stream.producerPresent = true → stream.closed = false →
      stream.consumerPresent = true →
      Effect stream (.offered offer true [.finish fault])
        { stream with queue := stream.queue ++ [.finish fault], closed := true }
  | closedUnheard (stream : Stream) (offer : Offer) (fault : Option String) :
      offer.close? = some fault → stream.producerPresent = true → stream.closed = false →
      stream.consumerPresent = false →
      Effect stream (.offered offer true []) { stream with closed := true }
  | closedAgain (stream : Stream) (offer : Offer) (fault : Option String) :
      offer.close? = some fault → stream.producerPresent = true → stream.closed = true →
      Effect stream (.offered offer true []) stream
  | producerLeft (stream : Stream) : Effect stream .producerLeft stream.dropProducer
  | asked (stream : Stream) (demand : Demand) : Effect stream (.asked demand) stream
  | answered (stream : Stream) (reading : Reading) (answer : Answer) :
      Effect stream (.answered reading answer) stream
  | took (stream : Stream) (object : Option HeapObject) (rest : List Slot) :
      stream.consumerPresent = true → stream.ended = false → stream.queue = .item object :: rest →
      Effect stream (.polled (.item object))
        { stream with queue := rest, delivered := stream.delivered + 1 }
  | finished (stream : Stream) (fault : Option String) (rest : List Slot) :
      stream.consumerPresent = true → stream.ended = false → stream.queue = .finish fault :: rest →
      Effect stream (.polled .ended) { stream with queue := rest, ended := true, fault := fault }
  | stopped (stream : Stream) :
      stream.consumerPresent = true → stream.ended = false → stream.queue = [] →
      stream.producerPresent = false →
      Effect stream (.polled .ended)
        { stream with ended := true, fault := some (Stream.stoppedFault stream.tag) }
  | foundNothing (stream : Stream) :
      stream.consumerPresent = true → stream.ended = false → stream.queue = [] →
      stream.producerPresent = true → Effect stream (.polled .nothing) stream
  | spent (stream : Stream) : stream.ended = true → Effect stream (.polled .ended) stream
  | consumerLeft (stream : Stream) : Effect stream .consumerLeft stream.dropConsumer

theorem offer_some {exchange after : Exchange} {event : Event} {offer : Offer}
    (offered : exchange.offer offer = some (event, after)) :
    ∃ reply, exchange.stream.accept offer = some (reply, after.stream) ∧
      event = .offered offer reply (after.stream.queue.drop exchange.stream.queue.length) := by
  obtain ⟨⟨reply, stream⟩, accepted, same⟩ := Option.map_eq_some_iff.mp offered
  obtain ⟨rfl, rfl⟩ := Prod.mk.inj same
  exact ⟨reply, accepted, rfl⟩

theorem push_effect {stream after : Stream} {object : Option HeapObject} {reply : Bool}
    (producer : stream.producerPresent = true) (pushed : stream.push object = some (reply, after)) :
    Effect stream (.offered (.push object) reply (after.queue.drop stream.queue.length)) after := by
  cases closed : stream.closed with
  | true =>
      rw [Stream.push_closed closed] at pushed
      obtain ⟨rfl, rfl⟩ := Prod.mk.inj (Option.some.inj pushed)
      rw [List.drop_length]
      exact .refused stream object producer (.inl closed)
  | false =>
      cases full : stream.isFull with
      | true => cases (Stream.push_full closed full object).symm.trans pushed
      | false =>
          rw [Stream.push_open closed full] at pushed
          obtain ⟨rfl, rfl⟩ := Prod.mk.inj (Option.some.inj pushed)
          cases consumer : stream.consumerPresent with
          | true =>
              rw [Stream.send_heard consumer, List.drop_left]
              exact .pushed stream object producer closed consumer
          | false =>
              rw [Stream.send_unheard consumer, List.drop_length]
              exact .refused stream object producer (.inr consumer)

theorem close_effect {stream after : Stream} {offer : Offer} {fault : Option String}
    (closes : offer.close? = some fault) (producer : stream.producerPresent = true)
    (done : stream.close fault = some after) :
    Effect stream (.offered offer true (after.queue.drop stream.queue.length)) after := by
  cases closed : stream.closed with
  | true =>
      rw [Stream.close_closed closed] at done
      obtain rfl := Option.some.inj done
      rw [List.drop_length]
      exact .closedAgain stream offer fault closes producer closed
  | false =>
      cases full : stream.isFull with
      | true => cases (Stream.close_full closed full fault).symm.trans done
      | false =>
          rw [Stream.close_open closed full] at done
          obtain rfl := Option.some.inj done
          cases consumer : stream.consumerPresent with
          | true =>
              rw [Stream.send_heard consumer, List.drop_left]
              exact .closed stream offer fault closes producer closed consumer
          | false =>
              rw [Stream.send_unheard consumer, List.drop_length]
              exact .closedUnheard stream offer fault closes producer closed consumer

theorem accept_effect {stream after : Stream} {offer : Offer} {reply : Bool}
    (producer : stream.producerPresent = true) (accepted : stream.accept offer = some (reply, after)) :
    Effect stream (.offered offer reply (after.queue.drop stream.queue.length)) after := by
  have closing : ∀ fault, offer.close? = some fault →
      Effect stream (.offered offer reply (after.queue.drop stream.queue.length)) after := by
    intro fault closes
    rw [Stream.accept_close closes] at accepted
    obtain ⟨closed, done, same⟩ := Option.map_eq_some_iff.mp accepted
    obtain ⟨rfl, rfl⟩ := Prod.mk.inj same
    exact close_effect closes producer done
  cases offer with
  | push object => exact push_effect producer accepted
  | finish => exact closing none rfl
  | fail message => exact closing (some message) rfl

theorem poll_effect (stream : Stream) (consumer : stream.consumerPresent = true) :
    Effect stream (.polled stream.poll.1) stream.poll.2 := by
  cases ended : stream.ended with
  | true =>
      rw [Stream.poll_ended ended]
      exact .spent stream ended
  | false =>
      cases queue : stream.queue with
      | nil =>
          cases producer : stream.producerPresent with
          | true =>
              rw [Stream.poll_nothing ended queue producer]
              exact .foundNothing stream consumer ended queue producer
          | false =>
              rw [Stream.poll_stopped ended queue producer]
              exact .stopped stream consumer ended queue producer
      | cons slot rest =>
          cases slot with
          | item object =>
              rw [Stream.poll_item ended queue]
              exact .took stream object rest consumer ended queue
          | finish fault =>
              rw [Stream.poll_finish ended queue]
              exact .finished stream fault rest consumer ended queue

theorem move_effect {exchange after : Exchange} {event : Event} {move : Move}
    (moved : exchange.move move = some (event, after)) : Effect exchange.stream event after.stream := by
  cases move with
  | offer offer =>
      obtain ⟨producer, offered⟩ := Option.ite_none_right_eq_some.mp moved
      obtain ⟨reply, accepted, rfl⟩ := offer_some offered
      exact accept_effect producer accepted
  | dropProducer =>
      obtain ⟨_, same⟩ := Option.ite_none_right_eq_some.mp moved
      obtain ⟨rfl, rfl⟩ := Prod.mk.inj (Option.some.inj same)
      exact .producerLeft exchange.stream
  | ask demand =>
      obtain ⟨_, same⟩ := Option.ite_none_right_eq_some.mp moved
      obtain ⟨rfl, rfl⟩ := Prod.mk.inj (Option.some.inj same)
      exact .asked exchange.stream demand
  | poll =>
      cases underway : exchange.reading with
      | none => simp [Exchange.move, underway] at moved
      | some reading =>
          simp only [Exchange.move, underway, Option.ite_none_right_eq_some, Bool.and_eq_true] at moved
          obtain ⟨⟨consumer, _⟩, same⟩ := moved
          obtain ⟨rfl, rfl⟩ := Prod.mk.inj (Option.some.inj same)
          exact poll_effect exchange.stream consumer
  | answer =>
      cases underway : exchange.reading with
      | none => simp [Exchange.move, underway] at moved
      | some reading =>
          simp only [Exchange.move, underway, Option.ite_none_left_eq_some] at moved
          obtain ⟨_, same⟩ := moved
          obtain ⟨rfl, rfl⟩ := Prod.mk.inj (Option.some.inj same)
          exact .answered exchange.stream reading reading.answer
  | dropConsumer =>
      obtain ⟨_, same⟩ := Option.ite_none_right_eq_some.mp moved
      obtain ⟨rfl, rfl⟩ := Prod.mk.inj (Option.some.inj same)
      exact .consumerLeft exchange.stream

theorem tag_effect {stream after : Stream} {event : Event} (effect : Effect stream event after) :
    after.tag = stream.tag := by
  cases effect <;> rfl

theorem delivered_effect {stream after : Stream} {event : Event} (effect : Effect stream event after) :
    after.delivered = stream.delivered + event.handed.length := by
  cases effect <;> rfl

theorem producer_effect {stream after : Stream} {event : Event} {fault : Option String}
    (effect : Effect stream event after) (closes : event.close? = some fault) :
    stream.producerPresent = true := by
  cases effect with
  | pushed object producer => exact producer
  | refused object producer => exact producer
  | closed offer first told producer => exact producer
  | closedUnheard offer first told producer => exact producer
  | closedAgain offer first told producer => exact producer
  | producerLeft | asked | answered | took | finished | stopped | foundNothing | spent | consumerLeft =>
      cases closes

theorem ended_effect {stream after : Stream} {event : Event} (effect : Effect stream event after) :
    after.ended = true ↔ event = .polled .ended ∨ stream.ended = true := by
  cases effect with
  | finished | stopped => simp
  | spent ended => simp [ended]
  | pushed | refused | closed | closedUnheard | closedAgain | producerLeft | asked | answered | took
  | foundNothing | consumerLeft => simp [Stream.dropProducer, Stream.dropConsumer]

theorem steps_keep {Keeps : History → Exchange → Prop} {past : History} {exchange : Exchange}
    (kept : ∀ past exchange after event move, Keeps past exchange →
      Exchange.move exchange move = some (event, after) → Keeps (event :: past) after)
    (held : Keeps past exchange) (moves : List Move) :
    Keeps (moves.foldl step (past, exchange)).1 (moves.foldl step (past, exchange)).2 := by
  induction moves generalizing past exchange with
  | nil => exact held
  | cons move moves ih =>
      rw [List.foldl_cons, step]
      cases moved : exchange.move move with
      | none => exact ih held
      | some result => exact ih (kept past exchange result.2 result.1 move held moved)

end Exchange

end HeapCensus
