import HeapCensus.HeapClass
import HeapCensus.Outcome
import HeapCensus.Tag

set_option autoImplicit false

namespace HeapCensus

inductive Slot where
  | item (object : Option HeapObject)
  | finish (fault : Option String)
  deriving DecidableEq, Repr

inductive Polled where
  | nothing
  | item (object : Option HeapObject)
  | ended
  deriving DecidableEq, Repr

inductive Offer where
  | push (object : Option HeapObject)
  | finish
  | fail (message : String)
  deriving DecidableEq, Repr

structure Stream where
  tag : Tag
  capacity : Nat
  -- Slots sent and not yet taken, oldest first.
  queue : List Slot
  closed : Bool
  producerPresent : Bool
  consumerPresent : Bool
  ended : Bool
  fault : Option String
  -- Items handed to the consumer, null slots included.
  delivered : Nat
  deriving DecidableEq, Repr

namespace Stream

def defaultCapacity : Nat := 1024

def new (tag : Tag) (capacity : Nat) : Stream :=
  { tag := tag
    capacity := Nat.max capacity 1
    queue := []
    closed := false
    producerPresent := true
    consumerPresent := true
    ended := false
    fault := none
    delivered := 0 }

def isFull (stream : Stream) : Bool := stream.consumerPresent && stream.capacity ≤ stream.queue.length

def send (stream : Stream) (slot : Slot) : Stream :=
  if stream.consumerPresent then { stream with queue := stream.queue ++ [slot] } else stream

/-- Pushes an item; the answer says whether the stream took it. None: it would have to wait. -/
def push (stream : Stream) (object : Option HeapObject) : Option (Bool × Stream) :=
  if stream.closed then some (false, stream)
  else if stream.isFull then none
  else some (stream.consumerPresent, stream.send (.item object))

/-- Closes the stream. Only the first close has an effect. None: it would have to wait. -/
def close (stream : Stream) (fault : Option String) : Option Stream :=
  if stream.closed then some stream
  else if stream.isFull then none
  else some { stream.send (.finish fault) with closed := true }

def accept (stream : Stream) : Offer → Option (Bool × Stream)
  | .push object => stream.push object
  | .finish => (stream.close none).map fun closed => (true, closed)
  | .fail message => (stream.close (some message)).map fun closed => (true, closed)

def dropProducer (stream : Stream) : Stream := { stream with producerPresent := false }

def dropConsumer (stream : Stream) : Stream :=
  { stream with consumerPresent := false, queue := [] }

def finished (tag : Tag) : Stream :=
  { new tag 1 with queue := [.finish none], closed := true, producerPresent := false }

def stoppedFault (tag : Tag) : String :=
  "Stream " ++ tag.render ++ " producer stopped without end of stream"

def poll (stream : Stream) : Polled × Stream :=
  if stream.ended then (.ended, stream)
  else
    match stream.queue with
    | .item object :: rest =>
        (.item object, { stream with queue := rest, delivered := stream.delivered + 1 })
    | .finish fault :: rest => (.ended, { stream with queue := rest, ended := true, fault := fault })
    | [] =>
        if stream.producerPresent then (.nothing, stream)
        else (.ended, { stream with ended := true, fault := some (stoppedFault stream.tag) })

def drain : Nat → Stream → List (Option HeapObject) × Stream
  | 0, stream => ([], stream)
  | limit + 1, stream =>
      match stream.poll with
      | (.item object, rest) =>
          let others := drain limit rest
          (object :: others.1, others.2)
      | (_, rest) => ([], rest)

def mustWait (stream : Stream) (limit : Nat) : Bool :=
  !stream.ended && stream.producerPresent && !stream.closed && stream.queue.length < limit

def deliver (stream : Stream) (limit : Nat) : Option (List (Option HeapObject) × Stream) :=
  if stream.mustWait limit then none else some (stream.drain limit)

def collect (stream : Stream) (limit : Nat) : Option (List HeapObject × Stream) :=
  (stream.deliver limit).map fun taken => (taken.1.filterMap id, taken.2)

def next (stream : Stream) : Option (Option (Option HeapObject) × Stream) :=
  (stream.deliver 1).map fun taken => (taken.1.head?, taken.2)

end Stream

end HeapCensus
