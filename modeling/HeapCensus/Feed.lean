import HeapCensus.Dialogue
import HeapCensus.Stream

set_option autoImplicit false

namespace HeapCensus

abbrev Producer (ω : Type) := Dialogue ω Offer Bool Unit

structure Feed (ω : Type) where
  stream : Stream
  -- None once the producer has left.
  producer : Option (Producer ω)

namespace Feed

variable {ω : Type}

def start (tag : Tag) (capacity : Nat) (producer : Producer ω) : Feed ω :=
  { stream := Stream.new tag capacity, producer := some producer }

def finished (tag : Tag) : Feed ω := { stream := Stream.finished tag, producer := none }

def move (feed : Feed ω) : Activity ω (Feed ω) :=
  match feed.producer with
  | none => .stop feed
  | some (.stop _) => .stop { stream := feed.stream.dropProducer, producer := none }
  | some (.act change resume) =>
      .act change fun world => .stop { feed with producer := some (resume world) }
  | some (.call offer resume) =>
      match feed.stream.accept offer with
      | none => .stop feed
      | some (taken, stream) => .stop { stream := stream, producer := some (resume taken) }

def moves : Nat → Feed ω → Activity ω (Feed ω)
  | 0, feed => pure feed
  | amount + 1, feed => do moves amount (← feed.move)

def fillFrom (stream : Stream) : Producer ω → Activity ω (Feed ω)
  | .stop _ => .stop { stream := stream.dropProducer, producer := none }
  | .act change resume => .act change fun world => fillFrom stream (resume world)
  | .call offer resume =>
      if stream.queue.isEmpty then
        match stream.accept offer with
        | none => .stop { stream := stream, producer := some (.call offer resume) }
        | some (taken, stream) => fillFrom stream (resume taken)
      else .stop { stream := stream, producer := some (.call offer resume) }

def fill (feed : Feed ω) : Activity ω (Feed ω) :=
  match feed.producer with
  | none => .stop feed
  | some producer =>
      if feed.stream.queue.isEmpty then fillFrom feed.stream producer else .stop feed

def deliver : Nat → List Nat → Feed ω → Activity ω (List (Option HeapObject) × Feed ω)
  | 0, _, feed => pure ([], feed)
  | limit + 1, turns, feed => do
      let filled ← (← feed.moves (turns.headD 0)).fill
      match filled.stream.poll with
      | (.item object, stream) =>
          let (others, after) ← deliver limit turns.tail { filled with stream := stream }
          pure (object :: others, after)
      | (_, stream) => pure ([], { filled with stream := stream })

def runOut (stream : Stream) : Producer ω → Activity ω Unit
  | .stop _ => .stop ()
  | .act change resume => .act change fun world => runOut stream (resume world)
  | .call offer resume =>
      match stream.accept offer with
      | none => .stop ()
      | some (taken, stream) => runOut stream (resume taken)

def leave (feed : Feed ω) : Activity ω Unit :=
  match feed.producer with
  | none => .stop ()
  | some producer => runOut feed.stream.dropConsumer producer

end Feed

end HeapCensus
