import HeapCensus.Service
import HeapCensus.Startup

set_option autoImplicit false

namespace HeapCensus

def variableNames : List String :=
  ["HEAPSCOPE_HOST", "HEAPSCOPE_PORT", "HEAPSCOPE_NATIVE_LIB", "HEAPSCOPE_TIMING_HISTORY",
   "HEAPSCOPE_STREAM_CAPACITY", "HEAPSCOPE_WORKERS", "HEAPSCOPE_RESOLVER_TTL_SECS",
   "HEAPSCOPE_MONITOR_TYPES", "HEAPSCOPE_MONITOR_INTERVAL_SECS"]

def readEnvironment : IO Environment := do
  let values ← variableNames.mapM fun name => do return (name, ← IO.getEnv name)
  return fun name => ((values.find? fun entry => entry.1 = name).map (·.2)).join

def readRequest (line : String) : Request :=
  let parts := Text.cutAtChar ' ' (Text.trim line.toList)
  { method := String.ofList parts.1, target := String.ofList parts.2 }

def responseLine (response : Response) : String :=
  let body := (response.body.map Json.render).getD ""
  Text.trimmed (Nat.repr response.status ++ " " ++ body) ++ "\n"

section Serving

variable {ω : Type}

structure Serving (ω : Type) where
  session : Session ω
  watch : Option Watch
  due : Nat

def Serving.setClock (serving : Serving ω) (now : Nat) : Serving ω :=
  { serving with
    session := { serving.session with census := { serving.session.census with clock := now } } }

def Serving.beat (walker : Walker ω) (serving : Serving ω) (now : Nat) : Serving ω :=
  match serving.watch with
  | none => serving
  | some watch =>
      if !watch.running || now < serving.due then serving
      else
        let done := Activity.run (watch.beat walker) serving.session
        { session := done.2
          watch := some done.1
          due := now + watch.settings.interval * 1000000000 }

partial def serve (walker : Walker ω) (serving : Serving ω) : IO Unit := do
  let line ← (← IO.getStdin).getLine
  if line.isEmpty then return
  let now ← IO.monoNanosNow
  let ready := (serving.setClock now).beat walker now
  let answered := Activity.run (Service.answer walker ready.watch (readRequest line)) ready.session
  (← IO.getStdout).putStr (responseLine answered.1)
  (← IO.getStdout).flush
  serve walker { ready with session := answered.2 }

end Serving

def serveSource (startup : Startup) : IO Unit := do
  let watch := startup.watch.map fun settings => (Watch.new settings).start
  match startup.source with
  | .synthetic heap =>
      serve SyntheticHeap.walker
        { session := { census := startup.census, world := heap }, watch := watch, due := 0 }
  | .foreign binding =>
      serve Binding.walker
        { session := { census := startup.census, world := binding }, watch := watch, due := 0 }

/-- No library can be bound from here, and scans take turns, so one worker is enough. -/
def runService : IO UInt32 := do
  let settings := ServiceSettings.ofEnvironment 1 (← readEnvironment)
  match settings.start Machine.ample fun _ => .unreadable with
  | .ok startup =>
      serveSource startup
      return 0
  | .error failure =>
      let message := match failure with
        | .error cause => cause.message
        | .panic payload => payload.message
      (← IO.getStderr).putStr (message ++ "\n")
      return 1

end HeapCensus

def main : IO UInt32 := HeapCensus.runService
