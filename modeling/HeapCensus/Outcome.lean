set_option autoImplicit false

namespace HeapCensus

inductive Panic where
  | text (message : String)
  | value
  deriving DecidableEq, Repr

namespace Panic

def message : Panic → String
  | .text message => message
  | .value => "unknown panic"

def overflow : Panic := .text "attempt to add with overflow"

def noRoom : Panic := .text "capacity overflow"

end Panic

inductive Failure (ε : Type) where
  | error (cause : ε)
  | panic (payload : Panic)
  deriving DecidableEq, Repr

abbrev Outcome (ε α : Type) := Except (Failure ε) α

namespace Outcome

variable {ε δ α : Type}

def fail (cause : ε) : Outcome ε α := .error (.error cause)

def mapError (f : ε → δ) : Outcome ε α → Outcome δ α
  | .ok value => .ok value
  | .error (.error cause) => .error (.error (f cause))
  | .error (.panic payload) => .error (.panic payload)

def ofExcept : Except ε α → Outcome ε α
  | .ok value => .ok value
  | .error cause => .error (.error cause)

end Outcome

def counter (sum : Nat) : Except Panic Nat :=
  if sum < UInt64.size then .ok sum else .error .overflow

theorem counter_eq_ok_iff (sum value : Nat) :
    counter sum = .ok value ↔ sum < UInt64.size ∧ value = sum := by
  unfold counter
  split
  case isTrue fits =>
    constructor
    · intro same
      cases same
      exact ⟨fits, rfl⟩
    · intro given
      rw [given.2]
  case isFalse large =>
    constructor
    · intro same
      cases same
    · intro given
      exact absurd given.1 large

end HeapCensus
