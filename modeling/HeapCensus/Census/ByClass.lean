import HeapCensus.Census.Session

set_option autoImplicit false

namespace HeapCensus

def panicReport (payload : Panic) : String := "Walker panicked: " ++ payload.message

namespace Query

variable {ω : Type}

def countExact (walker : Walker ω) (type : HeapClass) (max : Int) : Query ω UInt32 := do
  let bound ← ofExcept (normalizeBound max)
  if !type.isConcrete then return 0
  let tag ← takeTag
  call (walker.countExact type tag bound)

def countAny (walker : Walker ω) (type : HeapClass) (max : Int) : Query ω UInt32 := do
  let bound ← ofExcept (normalizeBound max)
  let tag ← takeTag
  call (walker.countAny type tag bound)

def instancesOf (walker : Walker ω) (type : HeapClass) (max : Int) : Query ω (List HeapObject) := do
  let bound ← ofExcept (normalizeBound max)
  if !type.isConcrete then return []
  let tag ← takeTag
  call (walker.instancesExact type tag bound)

def instancesOfAny (walker : Walker ω) (type : HeapClass) (max : Int) :
    Query ω (List HeapObject) := do
  let bound ← ofExcept (normalizeBound max)
  let tag ← takeTag
  call (walker.instancesAny type tag bound)

def hear : ScanEvent → Session ω → SinkReply × Session ω
  | .visited tag object, session =>
      (.taken, session.setRegistry (session.census.registry.visit tag object))
  | .completed tag, session =>
      (.taken, session.setRegistry (session.census.registry.complete tag session.census.clock))
  | .fault tag message, session =>
      (.taken, session.setRegistry (session.census.registry.fault tag message))

def runScan (walker : Walker ω) (type : HeapClass) (tag : Tag) (bound : UInt32) :
    Query ω (Outcome WalkerError Unit) :=
  ExceptT.lift (Activity.serve Session.world Session.setWorld hear (walker.scan type tag bound).run)

def abandon (tag : Tag) (reason : String) : Query ω ScanReport := do
  match ← register (·.abandon tag reason) with
  | some report => return report
  | none => fail (.invariant (.unknownTag tag))

/-- Counts instances of a class and its subtypes, class by class. A scan that goes wrong has a report as
well: what was counted, with the faults. -/
def cardinality (walker : Walker ω) (type : HeapClass) (max : Int) : Query ω ScanReport := do
  let bound ← ofExcept (normalizeBound max)
  let now ← look (·.census.clock)
  let tag ← register (·.begin type now)
  match ← runScan walker type tag bound with
  | .ok () =>
      match ← register (·.finish tag) with
      | .ok report => return report
      | .error (.notComplete _) => abandon tag (WalkerError.incomplete tag).message
      | .error cause => fail (.invariant cause)
  | .error (.error cause) => abandon tag cause.message
  | .error (.panic payload) => abandon tag (panicReport payload)

/-- The walker's enumeration. However it ends, the stream is closed then, unless it is closed already. -/
def producer (walker : Walker ω) (type : HeapClass) (tag : Tag) (bound : UInt32) :
    Dialogue ω Offer Bool Unit := do
  let outcome ← (walker.enumerate type tag bound).run
  let closing : Offer :=
    match outcome with
    | .ok _ => .finish
    | .error (.error cause) => .fail cause.message
    | .error (.panic payload) => .fail (panicReport payload)
  let _ ← Dialogue.ask closing

def enumerate (walker : Walker ω) (type : HeapClass) (max : Int) : Query ω (Feed ω) := do
  let bound ← ofExcept (normalizeBound max)
  let tag ← takeTag
  if !type.isConcrete then return Feed.finished tag
  let opened ← look (·.census.openStream tag)
  let stream ← ExceptT.mk (pure opened)
  return { stream := stream, producer := some (producer walker type tag bound) }

def enumerateEach (walker : Walker ω) (wanted : List (HeapClass × Int)) :
    Query ω (List (Except QueryError (Feed ω))) :=
  wanted.mapM fun each => recover (enumerate walker each.1 each.2)

def onWorld {α : Type} (activity : Activity ω α) : Activity (Session ω) α :=
  activity.zoom Session.world Session.setWorld

def takeFrom (feed : Feed ω) (limit : Nat) :
    Activity (Session ω) (List (Option HeapObject) × Feed ω) := do
  let session ← Dialogue.look
  onWorld (feed.deliver limit (session.census.pacing feed.stream.tag))

structure Delivery where
  items : List (Option HeapObject)
  outcome : Outcome QueryError Nat

def forEachInstance (walker : Walker ω) (type : HeapClass) (max : Int) :
    Activity (Session ω) Delivery := do
  match normalizeBound max with
  | .error cause => return ⟨[], Outcome.fail cause⟩
  | .ok bound =>
      match ← (enumerate walker type max).run with
      | .error failure => return ⟨[], .error failure⟩
      | .ok feed => do
          let (items, after) ← takeFrom feed bound.toNat
          onWorld after.leave
          match after.stream.fault with
          | some fault => return ⟨items, Outcome.fail (.walker (.fault fault))⟩
          | none => return ⟨items, .ok items.length⟩

end Query

end HeapCensus
