import HeapCensus.Census.Session
import HeapCensus.Proofs.Activity

set_option autoImplicit false

namespace HeapCensus.Query

variable {ω α β : Type}

theorem perform_bind (query : Query ω α) (next : α → Query ω β) (session : Session ω) :
    (query >>= next).perform session =
      match query.perform session with
      | (.ok value, after) => (next value).perform after
      | (.error failure, after) => (.error failure, after) := by
  change Activity.run (Dialogue.bind query.run _) session = _
  rw [Activity.run_bind]
  change Activity.run (ExceptT.bindCont next (query.perform session).1) (query.perform session).2 = _
  obtain ⟨outcome, after⟩ := query.perform session
  cases outcome with
  | ok value => rfl
  | error failure => rfl

theorem perform_ok {query : Query ω α} {next : α → Query ω β} {session after : Session ω} {value : α}
    (done : query.perform session = (.ok value, after)) :
    (query >>= next).perform session = (next value).perform after := by
  rw [perform_bind, done]

theorem perform_value (query : Query ω α) (session : Session ω) :
    ((do let _ ← query : Query ω Unit).perform session).2 = (query.perform session).2 := by
  rw [perform_bind]
  obtain ⟨outcome, after⟩ := query.perform session
  cases outcome with
  | ok value => rfl
  | error failure => rfl

theorem perform_assoc {γ : Type} (query : Query ω α) (next : α → Query ω β) (last : β → Query ω γ)
    (session : Session ω) :
    ((query >>= next) >>= last).perform session = (query >>= fun value => next value >>= last).perform session := by
  rw [perform_bind, perform_bind, perform_bind]
  obtain ⟨outcome, after⟩ := query.perform session
  cases outcome with
  | ok value => exact (perform_bind (next value) last after).symm
  | error failure => rfl

theorem perform_lift (activity : Activity (Session ω) α) (session : Session ω) :
    Query.perform (ExceptT.lift activity) session =
      (.ok (Activity.run activity session).1, (Activity.run activity session).2) := by
  change Activity.run (Dialogue.bind activity _) session = _
  rw [Activity.run_bind]
  rfl

theorem perform_step (f : Session ω → α × Session ω) (session : Session ω) :
    (Query.step f).perform session = (.ok (f session).1, (f session).2) := rfl

theorem perform_register (f : Registry → α × Registry) (session : Session ω) :
    (Query.register f : Query ω α).perform session =
      (.ok (f session.census.registry).1, session.setRegistry (f session.census.registry).2) := rfl

end HeapCensus.Query

/-- The machine has room for the buffer of a stream, and a thread for its producer. -/
structure HeapCensus.Machine.Opens (machine : Machine) (capacity : Nat) (tag : Tag) : Prop where
  room : machine.buffer (Nat.max capacity 1) = none
  thread : machine.thread tag = none

namespace HeapCensus.Census

abbrev Opens (census : Census) (tag : Tag) : Prop := census.machine.Opens census.settings.streamCapacity tag

/-- How the opening of a stream fails: the caller panics without room, and is told of a missing thread. -/
inductive Refusal (tag : Tag) : Failure QueryError → Prop
  | room (payload : Panic) : Refusal tag (.panic payload)
  | thread (text : String) :
      Refusal tag (.error (.worker ("Failed to start enumeration " ++ tag.render ++ ": " ++ text)))

variable {census : Census} {tag : Tag}

theorem opens_ample (ample : census.machine = Machine.ample) : census.Opens tag := by
  constructor <;> rw [ample] <;> rfl

theorem open_stream_opens (opens : census.Opens tag) :
    census.openStream tag = .ok (Stream.new tag census.settings.streamCapacity) := by
  simp only [openStream, Stream.new, opens.room, opens.thread]

theorem open_stream_refused (refused : ¬ census.Opens tag) :
    ∃ failure, census.openStream tag = .error failure ∧ Refusal tag failure := by
  cases room : census.machine.buffer (Nat.max census.settings.streamCapacity 1) with
  | some payload =>
      refine ⟨_, ?_, .room payload⟩
      simp only [openStream, Stream.new, room]
  | none =>
      cases thread : census.machine.thread tag with
      | some text =>
          refine ⟨_, ?_, .thread text⟩
          simp only [openStream, Stream.new, room, thread]
          rfl
      | none => exact absurd ⟨room, thread⟩ refused

theorem open_stream_panics {payload : Panic} (panics : census.openStream tag = .error (.panic payload)) :
    census.machine.buffer (Nat.max census.settings.streamCapacity 1) = some payload := by
  simp only [openStream, Stream.new] at panics
  split at panics <;> cases panics
  assumption

end HeapCensus.Census
