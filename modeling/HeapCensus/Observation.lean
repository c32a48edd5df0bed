import HeapCensus.Walker

set_option autoImplicit false

namespace HeapCensus

variable {ω α : Type}

structure Recording where
  outcome : Outcome WalkerError Unit
  events : List ScanEvent

def takeDown (refused : ScanEvent → Bool) (taken : List ScanEvent) (event : ScanEvent) :
    SinkReply × List ScanEvent :=
  if refused event then (.panicked (.text "refused"), taken) else (.taken, event :: taken)

def record (refused : ScanEvent → Bool) (scan : Reporting ω Unit) (world : ω) : Recording × ω :=
  let done := scan.run.run (takeDown refused) [] world
  ({ outcome := done.1, events := done.2.1.reverse }, done.2.2)

namespace ScanEvent

def isVisit : ScanEvent → Bool
  | .visited .. => true
  | _ => false

def rank : ScanEvent → Nat
  | .visited _ (some object) => object.id.value + 1
  | _ => 0

def sort (events : List ScanEvent) : List ScanEvent :=
  ((events.filter isVisit).mergeSort fun first second => first.rank ≤ second.rank) ++
    events.filter (!isVisit ·)

end ScanEvent

structure Attended where
  stream : Stream
  taken : List (Option HeapObject)

namespace Attended

def read (attended : Attended) : Attended :=
  if attended.stream.consumerPresent then
    let drained := attended.stream.drain attended.stream.queue.length.succ
    { stream := drained.2, taken := drained.1.reverse ++ attended.taken }
  else attended

def received (attended : Attended) : List (Option HeapObject) := attended.taken.reverse

def offer (attended : Attended) (offer : Offer) : Bool × Attended :=
  let ready := attended.read
  match ready.stream.accept offer with
  | some (taken, stream) => (taken, { ready with stream := stream })
  | none => (false, ready)

end Attended

def attend (enumeration : Offering ω Nat) (stream : Stream) (world : ω) :
    Outcome WalkerError Nat × Attended × ω :=
  enumeration.run.run Attended.offer { stream := stream, taken := [] } world

end HeapCensus
