import HeapCensus.Census.ByClass

set_option autoImplicit false

namespace HeapCensus

structure NameCount where
  name : String
  count : Nat
  resolved : Nat
  deriving DecidableEq, Repr

structure RankingReport where
  name : String
  entries : List (Ranked String)
  roots : Nat
  elapsed : Nat
  faults : List String

structure CensusInfo where
  loadedAtBoot : Bool
  libraryLocation : Option String
  inFlight : Nat
  strays : Nat
  lastTag : Tag

namespace Query

variable {ω : Type}

def arraysOver (walker : Walker ω) : List HeapClass → List HeapClass → Query ω (List HeapClass)
  | arrays, [] => pure arrays
  | arrays, component :: components => do
      match ← attempt (walker.arrayClass component) with
      | some array => arraysOver walker (insertClass array arrays) components
      | none => arraysOver walker arrays components

def loadedBy (walker : Walker ω) (name : String) :
    List HeapClass → List HeapObject → Query ω (List HeapClass)
  | types, [] => pure types
  | types, loader :: loaders => do
      match ← attempt (walker.loadClass (some loader) name) with
      | some type => loadedBy walker name (insertClass type types) loaders
      | none => loadedBy walker name types loaders

def resolveBase (walker : Walker ω) (base : String) : Query ω (List HeapClass) := do
  if isPrimitiveName base then
    let type ← step fun session =>
      let called := (walker.primitiveClass base).run session.world
      (called.1, session.setWorld called.2)
    return type.toList
  let own ← attempt (walker.loadClass none base)
  let loaderClass ← call walker.classLoaderClass
  let loaders ← instancesOfAny walker loaderClass 0
  loadedBy walker base own.toList loaders

def resolveDimensions (walker : Walker ω) (base : String) : Nat → Query ω (List HeapClass)
  | 0 => resolveBase walker base
  | dimensions + 1 => do
      let components ← resolveDimensions walker base dimensions
      arraysOver walker [] components

def resolveFresh (walker : Walker ω) (name : TypeName) : Query ω (List HeapClass) :=
  resolveDimensions walker name.base name.dimensions

def consult {α : Type} (f : Resolutions → Nat → α × Resolutions) : Query ω α :=
  step fun session =>
    let done := f session.census.resolutions session.census.clock
    (done.1, session.setResolutions done.2)

def resolve (walker : Walker ω) (name : String) : Query ω (List HeapClass) := do
  let parsed ← ofExcept ((TypeName.parse name).mapError QueryError.ofTypeName)
  match ← consult (·.lookup parsed ·) with
  | some types => return types
  | none =>
      let types ← resolveFresh walker parsed
      consult fun resolutions now => ((), resolutions.remember parsed types now)
      return types

def resolveEach (walker : Walker ω) (names : List String) :
    Query ω (List (Except QueryError (List HeapClass))) :=
  names.mapM fun name => recover (resolve walker name)

/-- A query with resolutions of its own, and how they were used. The session's come back after it, however
it ends. -/
def apart {α : Type} (lifetime : Nat) (query : Query ω α) : Query ω (α × ResolutionStats) := do
  match Resolutions.create lifetime with
  | .error payload => panic payload
  | .ok empty =>
      let own ← step fun session => (session.census.resolutions, session.setResolutions empty)
      let outcome ← ExceptT.lift query.run
      let used ← step fun session => (session.census.resolutions, session.setResolutions own)
      let value ← ExceptT.mk (pure outcome)
      return (value, used.stats)

def shownName (name : String) : String := Text.trimmed name

def resolveSome (walker : Walker ω) (name : String) : Query ω (List HeapClass) := do
  let types ← resolve walker name
  if types.isEmpty then fail (.unresolved (shownName name))
  return types

def sumOver (count : HeapClass → Query ω UInt32) : List HeapClass → Query ω Nat
  | [] => pure 0
  | type :: types => do
      let first ← count type
      let others ← sumOver count types
      return first.toNat + others

def countOf (walker : Walker ω) (name : String) : Query ω NameCount := do
  let types ← resolveSome walker name
  let count ← sumOver (countExact walker · 0) types
  return { name := shownName name, count := count, resolved := types.length }

def countOfAny (walker : Walker ω) (name : String) : Query ω NameCount := do
  let types ← resolveSome walker name
  let count ← sumOver (countAny walker · 0) types
  return { name := shownName name, count := count, resolved := types.length }

def scanAll (walker : Walker ω) (types : List HeapClass) : Query ω (List ScanReport) := do
  let turns ← look (·.census.turns)
  let scans := types.map fun type => (cardinality walker type 0).run
  let outcomes ← ExceptT.lift (Activity.interleave turns scans)
  ExceptT.mk (pure (outcomes.mapM id))

def topInstances (walker : Walker ω) (name : String) (rows : Nat) (withoutPrimitives : Bool) :
    Query ω RankingReport := do
  if rows = 0 then fail (QueryError.ofRanking .noRows)
  let started ← look (·.census.clock)
  let types ← resolveSome walker name
  let reports ← scanAll walker types
  let entries ← ExceptT.mk (pure ((Ranking.topMerged (reports.map (·.tally)) rows
    withoutPrimitives).mapError QueryError.ofRanking))
  let now ← look (·.census.clock)
  return {
    name := shownName name
    entries := entries
    roots := types.length
    elapsed := now - started
    faults := reports.flatMap (·.faults) }

end Query

namespace Session

variable {ω : Type}

def latencyStats (session : Session ω) : LatencyStats := session.census.registry.latency.stats

def resetLatencies (session : Session ω) (all : Bool) : Session ω :=
  let registry := session.census.registry
  let latency := if all then registry.latency.resetAll else registry.latency.reset
  session.setRegistry { registry with latency := latency }

def inFlight (session : Session ω) : Nat := session.census.registry.inFlight

def resolutionStats (session : Session ω) : ResolutionStats := session.census.resolutions.stats

def forgetResolutions (session : Session ω) : Session ω :=
  session.setResolutions session.census.resolutions.forgetAll

def info (walker : Walker ω) (session : Session ω) : CensusInfo :=
  { loadedAtBoot := walker.loadedAtBoot session.world
    libraryLocation := walker.libraryLocation session.world
    inFlight := session.inFlight
    strays := session.census.registry.strays
    lastTag := session.census.registry.tags.last }

end Session

end HeapCensus
