import HeapCensus.Census.Error
import HeapCensus.Census.Resolutions
import HeapCensus.Dialogue
import HeapCensus.Settings

set_option autoImplicit false

namespace HeapCensus

/-- What a census asks of the machine that it runs on, and why it is refused. -/
structure Machine where
  -- The threads of so many workers.
  pool : Nat → Option String
  -- A buffer of so many slots.
  buffer : Nat → Option Panic
  -- The thread that fills the stream with a tag.
  thread : Tag → Option String

/-- A machine that refuses nothing. -/
def Machine.ample : Machine where
  pool _ := none
  buffer _ := none
  thread _ := none

structure Census where
  settings : CensusSettings
  machine : Machine
  registry : Registry
  resolutions : Resolutions
  -- In nanoseconds.
  clock : Nat
  -- How many moves the producer of a stream makes before each poll of the stream.
  pacing : Tag → List Nat
  -- Which scan of a ranking makes the next step.
  turns : List Nat

namespace Census

def new (settings : CensusSettings) (machine : Machine) : Outcome QueryError Census := do
  let latency ← (Latency.new settings.historyCapacity).mapError QueryError.ofLatency
  if let some text := machine.pool (Nat.max settings.workers 1) then Outcome.fail (.worker text)
  let resolutions ← (Resolutions.create settings.resolutionSeconds).mapError .panic
  return {
    settings := settings
    machine := machine
    registry := Registry.new latency
    resolutions := resolutions
    clock := 0
    pacing := fun _ => []
    turns := [] }

/-- The stream of an enumeration, with its buffer and its thread. -/
def openStream (census : Census) (tag : Tag) : Outcome QueryError Stream :=
  let stream := Stream.new tag census.settings.streamCapacity
  match census.machine.buffer stream.capacity, census.machine.thread tag with
  | some payload, _ => .error (.panic payload)
  | none, some text =>
      Outcome.fail (.worker ("Failed to start enumeration " ++ tag.render ++ ": " ++ text))
  | none, none => .ok stream

end Census

structure Session (ω : Type) where
  census : Census
  world : ω

abbrev Query (ω α : Type) := ExceptT (Failure QueryError) (Activity (Session ω)) α

namespace Session

variable {ω : Type}

def setWorld (world : ω) (session : Session ω) : Session ω := { session with world := world }

def setRegistry (registry : Registry) (session : Session ω) : Session ω :=
  { session with census := { session.census with registry := registry } }

def setResolutions (resolutions : Resolutions) (session : Session ω) : Session ω :=
  { session with census := { session.census with resolutions := resolutions } }

end Session

namespace Query

variable {ω α : Type}

def perform (query : Query ω α) (session : Session ω) : Outcome QueryError α × Session ω :=
  Activity.run query.run session

def step (f : Session ω → α × Session ω) : Query ω α := ExceptT.lift (Activity.step f)

def look (view : Session ω → α) : Query ω α := step fun session => (view session, session)

def fail (cause : QueryError) : Query ω α := throw (.error cause)

def panic (payload : Panic) : Query ω α := throw (.panic payload)

def ofExcept : Except QueryError α → Query ω α
  | .ok value => pure value
  | .error cause => fail cause

def register (f : Registry → α × Registry) : Query ω α :=
  step fun session =>
    let done := f session.census.registry
    (done.1, session.setRegistry done.2)

def takeTag : Query ω Tag := register Registry.takeTag

def call (walk : Walk ω α) : Query ω α :=
  ExceptT.mk (Activity.step fun session =>
    let called := walk.call session.world
    (called.1.mapError QueryError.walker, session.setWorld called.2))

def attempt (walk : Walk ω α) : Query ω (Option α) :=
  ExceptT.mk (Activity.step fun session =>
    let called := walk.call session.world
    (match called.1 with
      | .ok value => .ok (some value)
      | .error (.error _) => .ok none
      | .error (.panic payload) => .error (.panic payload),
     session.setWorld called.2))

def recover (query : Query ω α) : Query ω (Except QueryError α) :=
  ExceptT.mk do
    match ← query.run with
    | .ok value => return .ok (.ok value)
    | .error (.error cause) => return .ok (.error cause)
    | .error (.panic payload) => return .error (.panic payload)

end Query

end HeapCensus
