import HeapCensus.Tally

set_option autoImplicit false

namespace HeapCensus

structure Ranked (κ : Type) where
  key : κ
  count : Nat
  deriving DecidableEq, Repr

inductive RankingError where
  | noRows
  deriving DecidableEq, Repr

def RankingError.message : RankingError → String
  | .noRows => "Top-N size must be at least 1"

namespace Ranking

variable {κ : Type}

def rank (rows : Nat) (entries : List (Ranked κ)) : List (Ranked κ) :=
  (entries.mergeSort fun first second => second.count ≤ first.count).take rows

def admits (withoutPrimitives : Bool) (type : HeapClass) : Bool :=
  !(withoutPrimitives && type.isPrimitiveLike)

def top (tally : Tally) (rows : Nat) (withoutPrimitives : Bool) :
    Except RankingError (List (Ranked HeapClass)) :=
  if rows = 0 then .error .noRows
  else
    let admitted := tally.rows.filter fun row => admits withoutPrimitives row.1
    .ok (rank rows (admitted.map fun row => ⟨row.1, row.2⟩))

def topMerged (tallies : List Tally) (rows : Nat) (withoutPrimitives : Bool) :
    Outcome RankingError (List (Ranked String)) :=
  if rows = 0 then Outcome.fail .noRows
  else
    let admitted := (tallies.flatMap Tally.rows).filter fun row => admits withoutPrimitives row.1
    match gatherNames admitted with
    | .error payload => .error (.panic payload)
    | .ok named => .ok (rank rows (named.map fun row => ⟨row.1, row.2⟩))

end Ranking

end HeapCensus
