import HeapCensus.Latency
import HeapCensus.Ranking
import HeapCensus.Registry
import HeapCensus.TypeName
import HeapCensus.Walker

set_option autoImplicit false

namespace HeapCensus

inductive QueryError where
  | invalidArgument (text : String)
  | unresolved (name : String)
  | walker (cause : WalkerError)
  | invariant (cause : RegistryError)
  | worker (text : String)
  deriving DecidableEq, Repr

namespace QueryError

def message : QueryError → String
  | .invalidArgument text => "Invalid argument: " ++ text
  | .unresolved name => "No loaded type matches '" ++ name ++ "'"
  | .walker cause => "Walker error: " ++ cause.message
  | .invariant cause => "Aggregation invariant violated: " ++ cause.message
  | .worker text => "Worker error: " ++ text

def ofTypeName (cause : TypeNameError) : QueryError := .invalidArgument cause.message

def ofLatency (cause : LatencyError) : QueryError := .invalidArgument cause.message

def ofRanking (cause : RankingError) : QueryError := .invalidArgument cause.message

end QueryError

/-- A caller's bound as the walker's: 0 stands for no bound, and so does what needs more than 32 bits. -/
def normalizeBound (max : Int) : Except QueryError UInt32 :=
  if max < 0 then
    .error (.invalidArgument ("Result bound must not be negative, got " ++ Int.repr max))
  else if max = 0 ∨ (unbounded.toNat : Int) ≤ max then .ok unbounded
  else .ok max.toNat.toUInt32

end HeapCensus
