import HeapCensus.Address
import HeapCensus.Binding
import HeapCensus.Census.Session
import HeapCensus.SyntheticHeap

set_option autoImplicit false

namespace HeapCensus

inductive HeapSource where
  | synthetic (heap : SyntheticHeap)
  | foreign (binding : Binding)

inductive StartError where
  | heap (cause : WalkerError)
  | census (cause : QueryError)
  | address
  deriving DecidableEq, Repr

def StartError.message : StartError → String
  | .heap cause => cause.message
  | .census cause => cause.message
  | .address => SocketAddress.syntaxMessage

structure Startup where
  source : HeapSource
  census : Census
  address : SocketAddress
  watch : Option WatchSettings

def HeapSource.load (libraries : String → LibraryFile) :
    Option String → Except WalkerError HeapSource
  | none => .ok (.synthetic SyntheticHeap.demo)
  | some path => (Binding.load path (libraries path)).map .foreign

namespace ServiceSettings

def addressText (settings : ServiceSettings) : String :=
  settings.host ++ ":" ++ Nat.repr settings.port

def start (settings : ServiceSettings) (machine : Machine) (libraries : String → LibraryFile) :
    Outcome StartError Startup := do
  let source ← (Outcome.ofExcept (HeapSource.load libraries settings.library)).mapError .heap
  let census ← (Census.new settings.census machine).mapError .census
  match SocketAddress.parse settings.addressText with
  | none => Outcome.fail .address
  | some address =>
      return {
        source := source
        census := census
        address := address
        watch := if settings.watch.isEnabled then some settings.watch else none }

end ServiceSettings

end HeapCensus
