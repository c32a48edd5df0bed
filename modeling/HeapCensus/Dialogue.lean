set_option autoImplicit false

namespace HeapCensus

/-- A dialogue over a state of the callee, with calls to the caller and their replies, and a result. -/
inductive Dialogue (ω κ ρ α : Type) where
  | stop (result : α)
  -- Changes the state by `change`; what follows may depend on the state before.
  | act (change : ω → ω) (resume : ω → Dialogue ω κ ρ α)
  | call (command : κ) (resume : ρ → Dialogue ω κ ρ α)

namespace Dialogue

variable {ω υ κ ρ σ α β : Type}

def bind (first : Dialogue ω κ ρ α) (next : α → Dialogue ω κ ρ β) : Dialogue ω κ ρ β :=
  match first with
  | .stop result => next result
  | .act change resume => .act change fun state => (resume state).bind next
  | .call command resume => .call command fun reply => (resume reply).bind next

instance : Monad (Dialogue ω κ ρ) where
  pure := .stop
  bind := bind

def look : Dialogue ω κ ρ ω := .act id .stop

def change (f : ω → ω) : Dialogue ω κ ρ Unit := .act f fun _ => .stop ()

def ask (command : κ) : Dialogue ω κ ρ ρ := .call command .stop

def zoom (get : υ → ω) (put : ω → υ → υ) : Dialogue ω κ ρ α → Dialogue υ κ ρ α
  | .stop result => .stop result
  | .act change resume =>
      .act (fun whole => put (change (get whole)) whole) fun whole => (resume (get whole)).zoom get put
  | .call command resume => .call command fun reply => (resume reply).zoom get put

def run (answer : σ → κ → ρ × σ) : Dialogue ω κ ρ α → σ → ω → α × σ × ω
  | .stop result, caller, state => (result, caller, state)
  | .act change resume, caller, state => (resume state).run answer caller (change state)
  | .call command resume, caller, state =>
      let replied := answer caller command
      (resume replied.1).run answer replied.2 state

end Dialogue

/-- A dialogue with nobody: changes of a state, each of them one step. Several activities over one state can
take turns between their steps. -/
abbrev Activity (σ α : Type) := Dialogue σ Empty Empty α

namespace Activity

variable {σ ω κ ρ α : Type}

def step (f : σ → α × σ) : Activity σ α := .act (fun state => (f state).2) fun state => .stop (f state).1

def run : Activity σ α → σ → α × σ
  | .stop result, state => (result, state)
  | .act change resume, state => run (resume state) (change state)
  | .call command _, _ => nomatch command

def serve (get : σ → ω) (put : ω → σ → σ) (answer : κ → σ → ρ × σ) :
    Dialogue ω κ ρ α → Activity σ α
  | .stop result => .stop result
  | .act change resume =>
      .act (fun whole => put (change (get whole)) whole)
        fun whole => serve get put answer (resume (get whole))
  | .call command resume =>
      .act (fun whole => (answer command whole).2)
        fun whole => serve get put answer (resume (answer command whole).1)

def inTurn : List (Activity σ α) → Activity σ (List α)
  | [] => .stop []
  | activity :: activities =>
      Dialogue.bind activity fun result =>
        Dialogue.bind (inTurn activities) fun results => .stop (result :: results)

/-- Activities at the same time: each number of the schedule names the one that makes its next step. What is
left when the schedule is through is done in turn. -/
def interleave : List Nat → List (Activity σ α) → Activity σ (List α)
  | [], activities => inTurn activities
  | pick :: schedule, activities =>
      match activities[pick]? with
      | some (.act change resume) =>
          .act change fun state => interleave schedule (activities.set pick (resume state))
      | _ => interleave schedule activities

end Activity

end HeapCensus
