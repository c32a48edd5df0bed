import HeapCensus.Form
import HeapCensus.Json
import HeapCensus.Watch

set_option autoImplicit false

namespace HeapCensus

structure Request where
  method : String
  target : String
  deriving DecidableEq, Repr

structure Response where
  status : Nat
  -- None when the response is not JSON.
  body : Option Json

inductive Route where
  | health
  | agent
  | count
  | top
  | latencies
  | resetLatencies
  | watch
  deriving DecidableEq, Repr

namespace Route

def ofPath? : String → Option Route
  | "/health" => some .health
  | "/agent" => some .agent
  | "/instances/count" => some .count
  | "/instances/top" => some .top
  | "/timings" => some .latencies
  | "/timings/reset" => some .resetLatencies
  | "/monitor" => some .watch
  | _ => none

def admits (route : Route) (method : String) : Bool :=
  match route with
  | .resetLatencies => method = "POST"
  | _ => method = "GET" || method = "HEAD"

end Route

namespace Request

def isSchemeChar (c : Char) : Bool := c.isAlphanum || c = '+' || c = '-' || c = '.'

def localPart (target : List Char) : List Char :=
  match target.dropWhile isSchemeChar with
  | ':' :: '/' :: '/' :: rest => rest.dropWhile fun c => c ≠ '/' && c ≠ '?' && c ≠ '#'
  | _ => target

def parts (request : Request) : List Char × List Char :=
  Text.cutAtChar '?' (Text.cutAtChar '#' (localPart request.target.toList)).1

def path (request : Request) : String := String.ofList request.parts.1

def form (request : Request) : Form := Form.parse request.parts.2

end Request

namespace Response

def ok (body : Json) : Response := ⟨200, some body⟩

def bare (status : Nat) : Response := ⟨status, none⟩

def failed (status : Nat) (text : String) : Response :=
  ⟨status, some (.object [("error", .text text)])⟩

def badForm : Response := bare 400

end Response

def QueryError.status : QueryError → Nat
  | .invalidArgument _ => 400
  | .unresolved _ => 404
  | .walker _ => 500
  | .invariant _ => 500
  | .worker _ => 500

def Response.ofError (cause : QueryError) : Response := failed cause.status cause.message

def Response.ofPanic : Response := failed 500 "task panicked"

namespace Service

def version : String := "0.1.0"

def milliseconds (nanoseconds : Nat) : Json := .natural (Latency.millis nanoseconds).toNat

def healthJson : Json := .object [("status", .text "healthy"), ("version", .text version)]

def wordJson (value : UInt64) : Json := .natural value.toNat

def latencyJson (stats : LatencyStats) : Json :=
  .object
    [("count", .natural stats.count), ("size", .natural stats.size),
     ("max_size", .natural stats.capacity), ("average", .optional .double stats.average),
     ("min", .optional wordJson stats.min), ("max", .optional wordJson stats.max),
     ("last", .optional wordJson stats.last)]

def resolutionJson (stats : ResolutionStats) : Json :=
  .object
    [("hits", .natural stats.hits), ("misses", .natural stats.misses),
     ("hit_rate", .double stats.hitRate), ("entry_count", .natural stats.entryCount),
     ("ttl_secs", .natural stats.lifetime)]

def infoFields (info : CensusInfo) : List (String × Json) :=
  [("loaded_at_boot", .boolean info.loadedAtBoot),
   ("native_library", .optional .text info.libraryLocation), ("in_flight", .natural info.inFlight),
   ("stray_callbacks", .natural info.strays), ("last_tag", wordJson info.lastTag.value)]

def infoJson (info : CensusInfo) (resolutions : ResolutionStats) : Json :=
  .object (infoFields info ++ [("resolver", resolutionJson resolutions)])

def countJson (count : NameCount) : Json :=
  .object
    [("type", .text count.name), ("count", .natural count.count),
     ("resolved", .natural count.resolved)]

def rankingJson (report : RankingReport) : Json :=
  let entries := report.entries.map fun entry =>
    Json.object [("type", .text entry.key), ("count", .natural entry.count)]
  let fault :=
    if report.faults.isEmpty then []
    else [("fault", Json.text (String.intercalate "; " report.faults))]
  .object
    ([("type", .text report.name), ("entries", .list entries), ("roots", .natural report.roots),
      ("elapsed_ms", milliseconds report.elapsed)] ++ fault)

def gaugeJson (gauge : Gauge) : Json :=
  .object
    [("type", .text gauge.name), ("instances", .natural gauge.instances),
     ("resolved_types", .natural gauge.resolved), ("sampled_at", .natural gauge.sampledAt),
     ("elapsed_ms", milliseconds gauge.elapsed)]

def watchJson : Option Watch → Json
  | none =>
      .object [("running", .boolean false), ("interval_secs", .null), ("gauges", .list [])]
  | some watch =>
      .object
        [("running", .boolean watch.running),
         ("interval_secs", .natural watch.settings.intervalSeconds),
         ("gauges", .list (watch.gauges.map gaugeJson))]

def defaultRows : Nat := 10

variable {ω α : Type}

def reply (encode : α → Json) (query : Query ω α) : Activity (Session ω) Response := do
  match ← query.run with
  | .ok value => return .ok (encode value)
  | .error (.error cause) => return .ofError cause
  | .error (.panic _) => return .ofPanic

def countFields (form : Form) : Option (String × Bool) := do
  let name ← form.required "type"
  let withSubtypes ← form.flag "any"
  some (name, withSubtypes)

def topFields (form : Form) : Option (String × Nat × Bool) := do
  let name ← form.required "type"
  let rows ←
    match ← form.single "n" with
    | none => some defaultRows
    | some text => Text.readNumber UInt64.size text
  let withoutPrimitives ← form.flag "exclude_primitives"
  some (name, rows, withoutPrimitives)

def respond (walker : Walker ω) (watch : Option Watch) (route : Route) (form : Form) :
    Activity (Session ω) Response :=
  match route with
  | .health => pure (.ok healthJson)
  | .agent => do
      let session ← Dialogue.look
      return .ok (infoJson (session.info walker) session.resolutionStats)
  | .count =>
      match countFields form with
      | none => pure .badForm
      | some (name, true) => reply countJson (Query.countOfAny walker name)
      | some (name, false) => reply countJson (Query.countOf walker name)
  | .top =>
      match topFields form with
      | none => pure .badForm
      | some (name, rows, withoutPrimitives) =>
          reply rankingJson (Query.topInstances walker name rows withoutPrimitives)
  | .latencies => do
      let session ← Dialogue.look
      return .ok (latencyJson session.latencyStats)
  | .resetLatencies =>
      match form.flag "all" with
      | none => pure .badForm
      | some all =>
          Activity.step fun session =>
            let after := session.resetLatencies all
            (.ok (latencyJson after.latencyStats), after)
  | .watch => pure (.ok (watchJson watch))

def answer (walker : Walker ω) (watch : Option Watch) (request : Request) :
    Activity (Session ω) Response := do
  if request.method = "OPTIONS" then return .bare 200
  match Route.ofPath? request.path with
  | none => return .bare 404
  | some route =>
      if !route.admits request.method then return .bare 405
      let response ← respond walker watch route request.form
      if request.method = "HEAD" then return .bare response.status
      return response

end Service

end HeapCensus
