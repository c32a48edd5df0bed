import HeapCensus.Proofs.ClassCache
import Mathlib

set_option autoImplicit false

namespace HeapCensus

namespace Dialogue

variable {ω κ ρ σ α β : Type}

theorem run_bind (answer : σ → κ → ρ × σ) (first : Dialogue ω κ ρ α) (next : α → Dialogue ω κ ρ β)
    (caller : σ) (state : ω) :
    (first.bind next).run answer caller state =
      (next (first.run answer caller state).1).run answer (first.run answer caller state).2.1
        (first.run answer caller state).2.2 := by
  induction first generalizing caller state with
  | stop result => rfl
  | act change resume ih => exact ih state caller (change state)
  | call command resume ih => exact ih (answer caller command).1 (answer caller command).2 state

end Dialogue

namespace Reporting

variable {ω σ α β : Type} {answer : σ → ScanEvent → SinkReply × σ} {caller : σ} {state : ω}

theorem run_ask (event : ScanEvent) (next : SinkReply → Reporting ω β) :
    (ExceptT.lift (Dialogue.ask event) >>= next : Reporting ω β).run.run answer caller state =
      (next (answer caller event).1).run.run answer (answer caller event).2 state := rfl

theorem run_ok {part : Reporting ω α} {value : α} {after : σ} {later : ω} (next : α → Reporting ω β)
    (ran : part.run.run answer caller state = (.ok value, after, later)) :
    (part >>= next).run.run answer caller state = (next value).run.run answer after later := by
  change (Dialogue.bind part.run (ExceptT.bindCont next)).run answer caller state = _
  rw [Dialogue.run_bind, ran]
  rfl

end Reporting

namespace Binding

abbrev SinkCall := ScanEvent × SinkReply

variable {σ : Type} {answer : σ → ScanEvent → SinkReply × σ}

def noting (answer : σ → ScanEvent → SinkReply × σ) (heard : List SinkCall × σ) (event : ScanEvent) :
    SinkReply × List SinkCall × σ :=
  ((answer heard.2 event).1, heard.1 ++ [(event, (answer heard.2 event).1)], (answer heard.2 event).2)

/-- A sink may panic at any instance and at any completion, but it takes every fault. -/
def TakesFaults (answer : σ → ScanEvent → SinkReply × σ) : Prop :=
  ∀ sink tag message, (answer sink (.fault tag message)).1 = .taken

/-- A report that may meet a panic, which is then told as a fault. -/
inductive Guards (event : ScanEvent) (tag : Tag) (message : String) : List SinkCall → Prop
  | taken : Guards event tag message [(event, .taken)]
  | panicked (payload : Panic) :
      Guards event tag message [(event, .panicked payload), (.fault tag message, .taken)]

/-- The sink calls that one callback leads to. -/
inductive Becomes (binding : Binding) : AgentCallback → List SinkCall → Prop
  | null {word : Int64} {handle : Nat} {calls : List SinkCall} :
      Guards (.visited (Tag.ofSigned word) none) (Tag.ofSigned word) "panic in instance callback" calls →
      Becomes binding (.visited word 0 handle) calls
  | visited {word : Int64} {object handle : Nat} {type : HeapClass} {calls : List SinkCall} :
      object ≠ 0 → binding.answer? handle = some (.ok type) →
      Guards (.visited (Tag.ofSigned word) (some ⟨⟨object⟩, type⟩)) (Tag.ofSigned word)
        "panic in instance callback" calls →
      Becomes binding (.visited word object handle) calls
  | unresolved {word : Int64} {object handle : Nat} {error : WalkerError} :
      object ≠ 0 → binding.answer? handle = some (.error error) →
      Becomes binding (.visited word object handle) [(.fault (Tag.ofSigned word) error.message, .taken)]
  | completed {word : Int64} {calls : List SinkCall} :
      Guards (.completed (Tag.ofSigned word)) (Tag.ofSigned word) "panic in completion callback" calls →
      Becomes binding (.completed word) calls

/-- Each class that a callback asks for has components that come to an end. -/
def ScanSettles (binding : Binding) (callbacks : List AgentCallback) : Prop :=
  ∀ word object handle, .visited word object handle ∈ callbacks → object ≠ 0 → Settles binding handle

variable {start binding : Binding}

theorem scan_settles_of_grounded (grounded : Grounded binding.agent) (callbacks : List AgentCallback) :
    ScanSettles binding callbacks :=
  fun _ _ handle _ _ => settles_of_grounded grounded handle

theorem fault_told (takes : TakesFaults answer) (past : List SinkCall) (sink : σ) (binding : Binding) (tag : Tag)
    (message : String) :
    (do let _ : SinkReply ← ExceptT.lift (Dialogue.ask (.fault tag message)) : Reporting Binding Unit).run.run
      (noting answer) (past, sink) binding =
      (.ok (), (past ++ [(.fault tag message, .taken)], (answer sink (.fault tag message)).2), binding) := by
  rw [Reporting.run_ask, noting, takes]
  rfl

theorem report_guarded_run (takes : TakesFaults answer) (past : List SinkCall) (sink : σ)
    (binding : Binding) (event : ScanEvent) (tag : Tag) (message : String) :
    ∃ calls left, Guards event tag message calls ∧
      (reportGuarded event tag message).run.run (noting answer) (past, sink) binding =
        (.ok (), (past ++ calls, left), binding) := by
  rw [reportGuarded, Reporting.run_ask]
  simp only [noting]
  cases (answer sink event).1 with
  | taken => exact ⟨_, _, .taken, rfl⟩
  | panicked payload =>
      have told := fault_told takes (past ++ [(event, .panicked payload)]) (answer sink event).2 binding tag message
      rw [List.append_assoc] at told
      exact ⟨_, _, .panicked payload, told⟩

theorem lookup_reporting_run (binding : Binding) (handle : Nat) (heard : List SinkCall × σ) :
    (lookupReporting handle).run.run (noting answer) heard binding =
      (.ok (binding.lookup handle).1, heard, (binding.lookup handle).2) := rfl

theorem pass_on_run (takes : TakesFaults answer) (past : List SinkCall) (sink : σ) (left : Remembers start binding)
    (callback : AgentCallback) (settles : ScanSettles start [callback]) :
    ∃ calls after later, Becomes start callback calls ∧ Remembers start later ∧
      (passOn callback).run.run (noting answer) (past, sink) binding =
        (.ok (), (past ++ calls, after), later) := by
  cases callback with
  | completed word =>
      obtain ⟨calls, after, guards, ran⟩ := report_guarded_run takes past sink binding
        (.completed (Tag.ofSigned word)) (Tag.ofSigned word) "panic in completion callback"
      exact ⟨calls, after, binding, .completed guards, left, ran⟩
  | visited word object handle =>
      by_cases nothing : object = 0
      · obtain ⟨calls, after, guards, ran⟩ := report_guarded_run takes past sink binding
          (.visited (Tag.ofSigned word) none) (Tag.ofSigned word) "panic in instance callback"
        rw [passOn, if_pos nothing, nothing]
        exact ⟨calls, after, binding, .null guards, left, ran⟩
      · have remembers := remembers_trans left (lookup_remembers binding handle)
        obtain ⟨result, found⟩ := answer_settled (settles word object handle List.mem_cons_self nothing)
        have answered := lookup_answered ((answer_stable left handle).trans found)
        rw [passOn, if_neg nothing, Reporting.run_ok _ (lookup_reporting_run binding handle _), answered]
        cases result with
        | ok type =>
            obtain ⟨calls, after, guards, ran⟩ := report_guarded_run takes past sink (binding.lookup handle).2
              (.visited (Tag.ofSigned word) (some ⟨⟨object⟩, type⟩)) (Tag.ofSigned word)
              "panic in instance callback"
            exact ⟨calls, after, _, .visited nothing found guards, remembers, ran⟩
        | error error =>
            have told := fault_told takes past sink (binding.lookup handle).2 (Tag.ofSigned word) error.message
            exact ⟨_, _, _, .unresolved nothing found, remembers, told⟩

theorem pass_all_on_run (takes : TakesFaults answer) (past : List SinkCall) (sink : σ)
    (left : Remembers start binding) (callbacks : List AgentCallback) (settles : ScanSettles start callbacks) :
    ∃ groups after later, List.Forall₂ (Becomes start) callbacks groups ∧ Remembers start later ∧
      (passAllOn callbacks).run.run (noting answer) (past, sink) binding =
        (.ok (), (past ++ groups.flatten, after), later) := by
  induction callbacks generalizing past sink binding with
  | nil =>
      refine ⟨[], sink, binding, .nil, left, ?_⟩
      rw [List.flatten_nil, List.append_nil]
      rfl
  | cons callback callbacks ih =>
      have first : ScanSettles start [callback] := fun word object handle member =>
        settles word object handle (List.mem_cons.mpr (.inl (List.mem_singleton.mp member)))
      have others : ScanSettles start callbacks := fun word object handle member =>
        settles word object handle (List.mem_cons_of_mem callback member)
      obtain ⟨calls, between, middle, becomes, remembers, passed⟩ := pass_on_run takes past sink left callback first
      obtain ⟨groups, after, later, rest, kept, ran⟩ := ih (past ++ calls) between remembers others
      refine ⟨calls :: groups, after, later, .cons becomes rest, kept, ?_⟩
      rw [passAllOn, Reporting.run_ok _ passed, ran, List.flatten_cons, List.append_assoc]

theorem scan_run (takes : TakesFaults answer) (sink : σ) (binding : Binding) (type : HeapClass)
    (tag : Tag) (max : UInt32)
    (settles : ScanSettles binding (binding.agent.scan type.id.value tag.toSigned max).callbacks) :
    let scanned := binding.agent.scan type.id.value tag.toSigned max
    ∃ groups after later, List.Forall₂ (Becomes binding) scanned.callbacks groups ∧
      (scan type tag max).run.run (noting answer) ([], sink) binding =
        (Outcome.ofExcept (check "type_cardinality" scanned.status), (groups.flatten, after), later) := by
  intro scanned
  obtain ⟨groups, after, later, becomes, _, ran⟩ :=
    pass_all_on_run takes [] sink (remembers_refl binding) scanned.callbacks settles
  have looked : (Reporting.update id : Reporting Binding Binding).run.run (noting answer) ([], sink) binding =
      (.ok binding, ([], sink), binding) := rfl
  refine ⟨groups, after, later, becomes, ?_⟩
  rw [scan, Reporting.run_ok _ looked, Reporting.run_ok _ ran]
  rfl

theorem check_ok_iff (operation : String) (status : Int) :
    Outcome.ofExcept (check operation status) = .ok () ↔ status = 0 := by
  by_cases success : status = 0 <;> simp [check, success, Outcome.ofExcept]

theorem of_signed_value (word : Int64) : ((Tag.ofSigned word).value.toNat : Int) = word.toInt % 2 ^ 64 := by
  have bits : (Tag.ofSigned word).value.toNat = word.toBitVec.toNat := rfl
  have small := word.toBitVec.isLt
  rw [bits, Int64.toInt, BitVec.toInt_eq_toNat_bmod, Int.bmod_def]
  split <;> omega

def widget : HeapClass := .plain ⟨40⟩ "Widget" .concrete none

def widgets : Binding where
  agent := AgentTable.agent
    { wasLoaded := 1
      loaderClass := 0
      classes := []
      objects := []
      matching := []
      looseExact := false
      ignoreBound := false
      statuses := []
      script := some [.visited 0 1 40, .visited 0 2 40, .visited 0 0 99, .completed 0]
      loadable := []
      arrays := []
      primitives := [] }
  known := [(40, widget)]
  location := ""
  loadedAtBoot := true
  visits := 0
  descriptions := 0

def flaky (heard : Nat) : ScanEvent → SinkReply × Nat
  | .visited _ (some ⟨⟨2⟩, _⟩) => (.panicked .value, heard + 1)
  | _ => (.taken, heard + 1)

end Binding

end HeapCensus
