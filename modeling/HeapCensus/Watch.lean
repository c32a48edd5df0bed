import HeapCensus.Census.ByName

set_option autoImplicit false

namespace HeapCensus

structure Gauge where
  name : String
  instances : Nat
  resolved : Nat
  sampledAt : Nat
  elapsed : Nat
  deriving DecidableEq, Repr

def putGauge (gauge : Gauge) : List Gauge → List Gauge
  | [] => [gauge]
  | other :: gauges =>
      if gauge.name < other.name then gauge :: other :: gauges
      else if gauge.name = other.name then gauge :: gauges
      else other :: putGauge gauge gauges

structure Watch where
  settings : WatchSettings
  gauges : List Gauge
  running : Bool
  deriving DecidableEq, Repr

namespace Watch

variable {ω : Type}

def new (settings : WatchSettings) : Watch :=
  { settings := settings, gauges := [], running := false }

def start (watch : Watch) : Watch := { watch with running := true }

def stop (watch : Watch) : Watch := { watch with running := false }

def put (watch : Watch) (gauge : Gauge) : Watch :=
  { watch with gauges := putGauge gauge watch.gauges }

def enumerateAll (walker : Walker ω) : List HeapClass → Query ω Nat
  | [] => pure 0
  | type :: types => do
      let delivery ← ExceptT.lift (Query.forEachInstance walker type 0)
      let _ ← (ExceptT.mk (pure delivery.outcome) : Query ω Nat)
      let others ← enumerateAll walker types
      return (delivery.items.filter Option.isSome).length + others

def sampleName (walker : Walker ω) (name : String) : Query ω Gauge := do
  let started ← Query.look (·.census.clock)
  let types ← Query.resolve walker name
  if types.isEmpty then Query.fail (.unresolved name)
  let instances ← enumerateAll walker types
  let now ← Query.look (·.census.clock)
  return {
    name := name
    instances := instances
    resolved := types.length
    sampledAt := now
    elapsed := now - started }

/-- Samples names in turn; the answer is the number of gauges put. A name whose sample fails keeps its
gauge. A panic ends the round. -/
def sampleNames (walker : Walker ω) :
    List String → Watch → Activity (Session ω) (Except Panic Nat × Watch)
  | [], watch => pure (.ok 0, watch)
  | name :: names, watch => do
      match ← (sampleName walker name).run with
      | .ok gauge =>
          let (updated, after) ← sampleNames walker names (watch.put gauge)
          return (updated.map (· + 1), after)
      | .error (.error _) => sampleNames walker names watch
      | .error (.panic payload) => return (.error payload, watch)

def sampleOnce (walker : Walker ω) (watch : Watch) :
    Activity (Session ω) (Except Panic Nat × Watch) :=
  sampleNames walker watch.settings.names watch

def beat (walker : Walker ω) (watch : Watch) : Activity (Session ω) Watch := do
  let (_, after) ← watch.sampleOnce walker
  return after

def beatUntil (walker : Walker ω) (expected : Nat) : Nat → Watch → Activity (Session ω) Watch
  | 0, watch => pure watch
  | beats + 1, watch => do
      if expected ≤ watch.gauges.length then return watch
      beatUntil walker expected beats (← watch.beat walker)

/-- The background work of a watch that is stopped once it has so many gauges. The work ends only before it
waits for a beat, so a beat that it waits for when it is stopped is still made. -/
def workUntil (walker : Walker ω) (expected beats : Nat) (watch : Watch) :
    Activity (Session ω) Watch := do
  if expected ≤ watch.gauges.length then return watch
  let enough ← watch.beatUntil walker expected beats
  enough.beat walker

end Watch

end HeapCensus
