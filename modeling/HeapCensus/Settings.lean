import HeapCensus.Json
import HeapCensus.Latency
import HeapCensus.Stream
import HeapCensus.Text.Blank
import HeapCensus.Text.Decimal
import HeapCensus.Text.Split

set_option autoImplicit false

namespace HeapCensus

abbrev Environment := String → Option String

namespace Environment

def word (environment : Environment) (name : String) : Option Nat :=
  (environment name).bind (Text.readNumber UInt64.size)

end Environment

structure CensusSettings where
  historyCapacity : Nat
  streamCapacity : Nat
  workers : Nat
  resolutionSeconds : Nat
  deriving DecidableEq, Repr

namespace CensusSettings

def defaultResolutionSeconds : Nat := 30

def standard (processors : Nat) : CensusSettings :=
  { historyCapacity := Latency.defaultCapacity
    streamCapacity := Stream.defaultCapacity
    workers := processors
    resolutionSeconds := defaultResolutionSeconds }

def ofEnvironment (processors : Nat) (environment : Environment) : CensusSettings :=
  let fallback := standard processors
  let read (name : String) (value : Nat) : Nat := (environment.word name).getD value
  { historyCapacity := read "HEAPSCOPE_TIMING_HISTORY" fallback.historyCapacity
    streamCapacity := read "HEAPSCOPE_STREAM_CAPACITY" fallback.streamCapacity
    workers := read "HEAPSCOPE_WORKERS" fallback.workers
    resolutionSeconds := read "HEAPSCOPE_RESOLVER_TTL_SECS" fallback.resolutionSeconds }

def fieldNames : List String :=
  ["timing_history", "stream_capacity", "workers", "resolver_ttl_secs"]

def ofJson (json : Json) : Option CensusSettings := do
  match ← (← json.fields? fieldNames).mapM Json.word? with
  | [historyCapacity, streamCapacity, workers, resolutionSeconds] =>
      some
        { historyCapacity := historyCapacity
          streamCapacity := streamCapacity
          workers := workers
          resolutionSeconds := resolutionSeconds }
  | _ => none

def toJson (settings : CensusSettings) : Json :=
  let values :=
    [settings.historyCapacity, settings.streamCapacity, settings.workers,
     settings.resolutionSeconds]
  .object (fieldNames.zip (values.map .natural))

end CensusSettings

structure WatchSettings where
  names : List String
  intervalSeconds : Nat
  deriving DecidableEq, Repr

namespace WatchSettings

def standard : WatchSettings := { names := [], intervalSeconds := 5 }

def parseNames (text : String) : List String :=
  let pieces := (Text.splitAtChar ',' text.toList).map Text.trim
  (pieces.filter (!·.isEmpty)).map String.ofList

def ofEnvironment (environment : Environment) : WatchSettings :=
  { names := ((environment "HEAPSCOPE_MONITOR_TYPES").map parseNames).getD []
    intervalSeconds :=
      (environment.word "HEAPSCOPE_MONITOR_INTERVAL_SECS").getD standard.intervalSeconds }

def withName (settings : WatchSettings) (name : String) : WatchSettings :=
  { settings with names := settings.names ++ [name] }

def withInterval (settings : WatchSettings) (milliseconds : Nat) : WatchSettings :=
  { settings with intervalSeconds := Nat.max (milliseconds / 1000) 1 }

def isEnabled (settings : WatchSettings) : Bool := !settings.names.isEmpty

def interval (settings : WatchSettings) : Nat := Nat.max settings.intervalSeconds 1

def ofJson (json : Json) : Option WatchSettings := do
  match ← json.fields? ["types", "interval_secs"] with
  | [names, interval] =>
      some { names := ← names.texts?, intervalSeconds := ← interval.word? }
  | _ => none

def members (settings : WatchSettings) : List (String × Json) :=
  [("types", .list (settings.names.map .text)), ("interval_secs", .natural settings.intervalSeconds)]

def toJson (settings : WatchSettings) : Json := .object settings.members

def overview (settings : WatchSettings) : Json :=
  .object (settings.members ++
    [("enabled", .boolean settings.isEnabled), ("interval", .natural settings.interval)])

end WatchSettings

structure ServiceSettings where
  host : String
  port : Nat
  library : Option String
  census : CensusSettings
  watch : WatchSettings
  deriving DecidableEq, Repr

namespace ServiceSettings

def standard (processors : Nat) : ServiceSettings :=
  { host := "127.0.0.1"
    port := 8090
    library := none
    census := CensusSettings.standard processors
    watch := WatchSettings.standard }

def ofEnvironment (processors : Nat) (environment : Environment) : ServiceSettings :=
  let fallback := standard processors
  { host := (environment "HEAPSCOPE_HOST").getD fallback.host
    port := ((environment "HEAPSCOPE_PORT").bind (Text.readNumber UInt16.size)).getD fallback.port
    library := (environment "HEAPSCOPE_NATIVE_LIB").filter fun path =>
      !(Text.trim path.toList).isEmpty
    census := CensusSettings.ofEnvironment processors environment
    watch := WatchSettings.ofEnvironment environment }

end ServiceSettings

end HeapCensus
