import HeapCensus.Proofs.Completion
import HeapCensus.Proofs.ForEach
import HeapCensus.Proofs.InstanceLists
import HeapCensus.Proofs.Streaming

set_option autoImplicit false

namespace HeapCensus

namespace Binding

open Dialogue (Speaks Lasts)
open Draining (Allowed AmountsTo Drains Fair)

variable {start : Binding} {visits : List (Nat × Nat)} {worlds : List Binding} {said : List (Offer × Bool)}
  {pushed : Nat}

abbrev Pushing := Dialogue Binding Offer Bool (Outcome WalkerError (Nat × Option WalkerError))

def pushOn (pushed : Nat) (slot : Option HeapObject) (visits : List (Nat × Nat)) : Pushing :=
  .call (.push slot) fun reply =>
    if reply then (pushVisits (pushed + 1) visits).run else .stop (.ok (pushed, none))

def lookOn (pushed object handle : Nat) (visits : List (Nat × Nat)) (before : Binding) : Pushing :=
  match (before.lookup handle).1 with
  | .error error => .stop (.ok (pushed, some error))
  | .ok type => pushOn pushed (some ⟨⟨object⟩, type⟩) visits

theorem push_visits_null (pushed handle : Nat) (visits : List (Nat × Nat)) :
    (pushVisits pushed ((0, handle) :: visits)).run = .act visited fun _ => pushOn pushed none visits := by
  rw [pushVisits, if_pos rfl]
  rfl

theorem push_visits_object {object : Nat} (other : object ≠ 0) (pushed handle : Nat) (visits : List (Nat × Nat)) :
    (pushVisits pushed ((object, handle) :: visits)).run =
      .act visited fun _ =>
        .act (fun binding => (binding.lookup handle).2) (lookOn pushed object handle visits) := by
  rw [pushVisits, if_neg other]
  rfl

theorem push_on_said {slot : Option HeapObject} {outcome : Outcome WalkerError (Nat × Option WalkerError)}
    (spoken : Speaks (pushOn pushed slot visits) worlds said (.stop outcome)) (answered : Offer.Answered said) :
    ∃ more, said = (.push slot, true) :: more ∧ Offer.Answered more ∧
      Speaks (pushVisits (pushed + 1) visits).run worlds more (.stop outcome) := by
  cases spoken with
  | call _ _ reply _ more _ later =>
      obtain ⟨rfl, rest⟩ := Offer.answered_push answered
      exact ⟨more, rfl, rest, later⟩

theorem push_visits_said {outcome : Outcome WalkerError (Nat × Option WalkerError)}
    (spoken : Speaks (pushVisits pushed visits).run worlds said (.stop outcome))
    (steady : ∀ world ∈ worlds, Remembers start world) (answered : Offer.Answered said)
    (settles : WalkSettles start visits) :
    ∃ slots failure amount, Walked start visits slots failure ∧ outcome = .ok (amount, failure) ∧
      said.map Prod.fst = slots.map .push := by
  induction visits generalizing pushed worlds said with
  | nil =>
      obtain ⟨_, rfl, same⟩ := Dialogue.speaks_stop spoken
      cases same
      exact ⟨[], none, pushed, .done, rfl, rfl⟩
  | cons visit visits ih =>
      -- What follows a push, whichever slot was pushed.
      have onwards : ∀ {slot worlds said}, Speaks (pushOn pushed slot visits) worlds said (.stop outcome) →
          (∀ world ∈ worlds, Remembers start world) → Offer.Answered said → Sees start visit slot →
          ∃ slots failure amount, Walked start (visit :: visits) slots failure ∧ outcome = .ok (amount, failure) ∧
            said.map Prod.fst = slots.map .push := by
        intro slot worlds said spoken steady answered sees
        obtain ⟨more, rfl, rest, later⟩ := push_on_said spoken answered
        obtain ⟨slots, failure, amount, walked, same, pushes⟩ := ih later steady rest fun object handle member =>
          settles object handle (List.mem_cons_of_mem visit member)
        exact ⟨slot :: slots, failure, amount, .next sees walked, same, congrArg (Offer.push slot :: ·) pushes⟩
      obtain ⟨object, handle⟩ := visit
      by_cases nothing : object = 0
      · rw [nothing, push_visits_null] at spoken
        cases spoken with
        | act _ _ _ _ _ _ later =>
            exact onwards later (List.forall_mem_cons.mp steady).2 answered (nothing ▸ .null handle)
      · rw [push_visits_object nothing] at spoken
        cases spoken with
        | act _ _ _ _ _ _ looks =>
            cases looks with
            | act _ _ before _ _ _ later =>
                -- Others may have used the binding before the lookup, but its answer is the one of the
                -- start.
                obtain ⟨held, others⟩ := List.forall_mem_cons.mp (List.forall_mem_cons.mp steady).2
                obtain ⟨result, found⟩ := answer_settled (settles object handle List.mem_cons_self nothing)
                rw [lookOn, lookup_answered ((answer_stable held handle).trans found)] at later
                cases result with
                | ok type => exact onwards later others answered (.object nothing found)
                | error error =>
                    obtain ⟨_, rfl, same⟩ := Dialogue.speaks_stop later
                    cases same
                    exact ⟨[], some error, pushed, .cut (.object nothing found), rfl, rfl⟩

def queueFault (status : Int) (failure : Option WalkerError) : Option String :=
  if status = 0 then failure.map WalkerError.message
  else some (WalkerError.native "queue_instances" status).message

def settle (status : Int) (walked : Nat × Option WalkerError) : Offering Binding Nat := do
  ExceptT.mk (pure (Outcome.ofExcept (check "queue_instances" status)))
  match walked.2 with
  | some error => Offering.fail error
  | none =>
      let _ ← Offering.offer .finish
      pure walked.1

theorem settle_run (status : Int) (amount : Nat) (failure : Option WalkerError) :
    (settle status (amount, failure)).run =
      if status = 0 then
        match failure with
        | some error => .stop (.error (.error error))
        | none => .call .finish fun _ => .stop (.ok amount)
      else .stop (.error (.error (.native "queue_instances" status))) := by
  rw [settle, check]
  split
  · cases failure <;> rfl
  · rfl

theorem enumerate_run (type : HeapClass) (tag : Tag) (bound : UInt32) :
    (enumerate type tag bound).run =
      .act id fun binding =>
        let walk := binding.agent.queue type.id.value bound
        Dialogue.bind (pushVisits 0 walk.visits).run (ExceptT.bindCont (settle walk.status)) := rfl

theorem settle_said {status : Int} {amount : Nat} {failure : Option WalkerError} {outcome : Outcome WalkerError Nat}
    (spoken : Speaks (settle status (amount, failure)).run worlds said (.stop outcome)) :
    let closes := said.map Prod.fst ++ [Query.lastOffer outcome]
    Offer.pushed closes = [] ∧ Offer.firstClose closes = some (queueFault status failure) := by
  rw [settle_run] at spoken
  unfold queueFault
  split at spoken
  · rename_i success
    rw [if_pos success]
    cases failure with
    | some error =>
        obtain ⟨_, rfl, same⟩ := Dialogue.speaks_stop spoken
        cases same
        exact ⟨rfl, rfl⟩
    | none =>
        cases spoken with
        | call _ _ _ _ _ _ later =>
            obtain ⟨_, rfl, same⟩ := Dialogue.speaks_stop later
            cases same
            exact ⟨rfl, rfl⟩
  · rename_i refused
    rw [if_neg refused]
    obtain ⟨_, rfl, same⟩ := Dialogue.speaks_stop spoken
    cases same
    exact ⟨rfl, rfl⟩

theorem producer_amounts {type : HeapClass} (tag : Tag) {bound : UInt32} {slots : List (Option HeapObject)}
    {failure : Option WalkerError} (settles : WalkSettles start (start.agent.queue type.id.value bound).visits)
    (walked : Walked start (start.agent.queue type.id.value bound).visits slots failure) :
    AmountsTo (Remembers start) (Query.producer walker type tag bound) slots
      (queueFault (start.agent.queue type.id.value bound).status failure) := by
  intro worlds said spoken steady answered
  obtain ⟨outcome, front, reply, rfl, enumerated⟩ := Query.producer_speaks spoken
  have opened : Speaks (enumerate type tag bound).run worlds front (.stop outcome) := enumerated
  rw [enumerate_run] at opened
  cases opened with
  | act _ _ binding _ _ _ later =>
      obtain ⟨held, others⟩ := List.forall_mem_cons.mp steady
      obtain ⟨value, seen, rest, pushes, closes, rfl, rfl, pushing, settled⟩ := Dialogue.speaks_bind later
      rw [held.agent] at pushing settled
      have looked : ∀ world ∈ seen, Remembers start world :=
        fun world member => others world (List.mem_append_left rest member)
      obtain ⟨seenSlots, seenFailure, amount, again, rfl, same⟩ :=
        push_visits_said pushing looked (Offer.answered_front (Offer.answered_front answered)) settles
      obtain ⟨rfl, rfl⟩ := walked_unique again walked
      obtain ⟨nothing, fault⟩ := settle_said settled
      have whole : (pushes ++ closes ++ [(Query.lastOffer outcome, reply)]).map Prod.fst =
          seenSlots.map .push ++ (closes.map Prod.fst ++ [Query.lastOffer outcome]) := by
        rw [List.map_append, List.map_append, same, List.append_assoc]
        rfl
      have opened := Offer.pushes_open seenSlots
      rw [whole, Offer.pushed_open opened, Offer.pushes_pushed, nothing, List.append_nil, Offer.first_close_append,
        opened, fault]
      exact ⟨rfl, rfl⟩

theorem push_on_lasts (pushed : Nat) (slot : Option HeapObject) {visits : List (Nat × Nat)} {moves : Nat}
    (later : Lasts (Remembers start) (pushVisits (pushed + 1) visits).run moves) :
    Lasts (Remembers start) (pushOn pushed slot visits) (moves + 1) := by
  refine .call fun reply => ?_
  cases reply with
  | true => exact later
  | false => exact .stop _ _

theorem push_visits_lasts (start : Binding) (pushed : Nat) (visits : List (Nat × Nat)) :
    Lasts (Remembers start) (pushVisits pushed visits).run (3 * visits.length) := by
  induction visits generalizing pushed with
  | nil => exact .stop _ _
  | cons visit visits ih =>
      obtain ⟨object, handle⟩ := visit
      have visiting : ∀ binding, Remembers start binding → Remembers start binding.visited :=
        fun _ => remembers_visited
      have push := fun slot => push_on_lasts pushed slot (ih (pushed + 1))
      by_cases nothing : object = 0
      · rw [nothing, push_visits_null]
        exact .act visiting fun _ _ => Dialogue.lasts_longer (push none) (Nat.le_succ _)
      · rw [push_visits_object nothing]
        refine .act visiting fun _ _ => .act (fun binding held => ?_) fun before _ => ?_
        · exact remembers_trans held (lookup_remembers binding handle)
        · unfold lookOn
          split
          · exact .stop _ _
          · exact push _

theorem producer_lasts (start : Binding) (type : HeapClass) (tag : Tag) (bound : UInt32) :
    Lasts (Remembers start) (Query.producer walker type tag bound)
      (3 * (start.agent.queue type.id.value bound).visits.length + 3) := by
  have settles : ∀ status outcome, Lasts (Remembers start) (ExceptT.bindCont (settle status) outcome) 1 := by
    rintro status (failure | ⟨amount, failure⟩)
    · exact .stop _ _
    · change Lasts _ (settle status (amount, failure)).run 1
      rw [settle_run]
      split
      · cases failure with
        | some error => exact .stop _ _
        | none => exact .call fun _ => .stop _ _
      · exact .stop _ _
  have enumerated : Lasts (Remembers start) (enumerate type tag bound).run
      (3 * (start.agent.queue type.id.value bound).visits.length + 1 + 1) := by
    rw [enumerate_run]
    refine .act (fun _ held => held) fun binding held => ?_
    rw [held.agent]
    exact Dialogue.lasts_bind (push_visits_lasts start 0 _) (settles _)
  have closes : ∀ outcome, Lasts (Remembers start)
      (.call (Query.lastOffer outcome) fun _ => .stop () : Producer Binding) 1 :=
    fun _ => .call fun _ => .stop () 0
  have whole := Dialogue.lasts_bind enumerated closes
  exact whole

/-- An enumeration that is drained while others go on looking up classes of the agent, whatever the turns.
-/
structure Delivers (binding : Binding) (visits : List (Nat × Nat)) (slots : List (Option HeapObject))
    (fault : Option String) (feed : Feed Binding) (world : Binding) : Prop where
  drains : ∀ turns, (∀ turn ∈ turns, Allowed (Remembers binding) turn) →
    Drains slots fault ((Draining.start feed world).run turns)
  ends : ∀ rounds, Fair rounds → (∀ turn ∈ rounds.flatten, Allowed (Remembers binding) turn) →
    6 * visits.length + 9 < rounds.length → .ended ∈ ((Draining.start feed world).run rounds.flatten).told
  whole : fault = none → List.Forall₂ (Sees binding) visits slots

def NeverTruncated (session : Session Binding) (type : HeapClass) (max : Int) : Prop :=
  ∃ bound, normalizeBound max = .ok bound ∧
    let walk := session.world.agent.queue type.id.value bound
    ∃ slots failure feed after, Walked session.world walk.visits slots failure ∧
      (Query.enumerate walker type max).perform session = (.ok feed, after) ∧
      Delivers session.world walk.visits slots (queueFault walk.status failure) feed after.world

theorem whole_of_faultless {status : Int} {slots : List (Option HeapObject)} {failure : Option WalkerError}
    (walked : Walked start visits slots failure) (faultless : queueFault status failure = none) :
    List.Forall₂ (Sees start) visits slots := by
  unfold queueFault at faultless
  split at faultless
  · obtain rfl := Option.map_eq_none_iff.mp faultless
    exact walked_whole.mp walked
  · cases faultless

theorem enumeration_never_truncated (session : Session Binding) (type : HeapClass) (max : Int) (nonneg : 0 ≤ max)
    (concrete : type.isConcrete = true) (opens : session.census.Opens session.census.registry.takeTag.1)
    (settles : ∀ bound, normalizeBound max = .ok bound →
      WalkSettles session.world (session.world.agent.queue type.id.value bound).visits) :
    NeverTruncated session type max := by
  obtain ⟨bound, normalized⟩ := Query.normalize_bound_ok nonneg
  refine ⟨bound, normalized, ?_⟩
  intro walk
  have settled : WalkSettles session.world walk.visits := settles bound normalized
  obtain ⟨slots, failure, walked⟩ := walked_total settled
  refine ⟨slots, failure, _, _, walked, Query.enumerate_concrete normalized concrete opens, ?_⟩
  have held := remembers_refl session.world
  have lasts := producer_lasts session.world type session.census.registry.takeTag.1 bound
  constructor
  · exact Draining.start_drains held lasts (producer_amounts _ settled walked)
  · intro rounds fair allowed enough
    have total : 2 * (3 * walk.visits.length + 3) + 3 = 6 * walk.visits.length + 9 := by omega
    exact Draining.start_ends held lasts rounds allowed fair (Nat.lt_of_le_of_lt (Nat.le_of_eq total) enough)
  · exact whole_of_faultless walked

def gadget : HeapClass := .plain ⟨40⟩ "Gadget" .concrete none

/-- An agent without classes, under a binding that knows one of them. The first visit is of no object at all. -/
def gadgets : Agent :=
  AgentTable.agent
    { wasLoaded := 1
      loaderClass := 0
      classes := []
      objects := [(0, 40), (1, 40), (2, 99), (3, 40)]
      matching := [(40, [40, 99])]
      looseExact := true
      ignoreBound := true
      statuses := []
      script := none
      loadable := []
      arrays := []
      primitives := [] }

def listing (capacity : Nat) (machine : Machine) : Session Binding :=
  let census := Census.idle (Latency.empty 1 Nat.one_pos)
  let settings := { census.settings with streamCapacity := capacity }
  { census := { census with settings := settings, machine := machine }
    world := ⟨gadgets, [(40, gadget)], "", true, 0, 0⟩ }

theorem gadgets_never_truncated :
    let session := listing 0 .ample
    (0 : Int) ≤ 0 ∧ gadget.isConcrete = true ∧ session.census.Opens session.census.registry.takeTag.1 ∧
      Grounded session.world.agent ∧ NeverTruncated session gadget 0 ∧
      ∃ feed after, (Query.enumerate walker gadget 0).perform session = (.ok feed, after) ∧
        Delivers session.world [(0, 40), (1, 40), (2, 99), (3, 40)] [none, some ⟨⟨1⟩, gadget⟩]
          (some "Native call class_info failed with status -1") feed after.world := by
  intro session
  have opens : session.census.Opens session.census.registry.takeTag.1 := Census.opens_ample rfl
  have grounded : Grounded session.world.agent := grounded_of_entries nofun
  have truncated := enumeration_never_truncated session gadget 0 (Int.le_refl 0) rfl opens fun _ _ =>
    walk_settles_of_grounded grounded _
  refine ⟨Int.le_refl 0, rfl, opens, grounded, truncated, ?_⟩
  obtain ⟨bound, _, slots, failure, feed, after, walked, performed, delivers⟩ := truncated
  have sees : Sees session.world (1, 40) (some ⟨⟨1⟩, gadget⟩) :=
    .object (by decide) ((answer_ok_iff session.world 40 gadget).mpr (.known (by decide) rfl))
  have missed : session.world.answer? 99 = some (.error (.native "class_info" (-1))) :=
    (answer_iff session.world 99 _).mpr ⟨_, .refused ⟨by decide, rfl⟩ (by decide)⟩
  have misses : Misses session.world (2, 99) (.native "class_info" (-1)) := .object (by decide) missed
  obtain ⟨rfl, rfl⟩ := walked_unique walked (.next (.null 40) (.next sees (.cut misses)))
  exact ⟨feed, after, performed, delivers⟩

theorem vast_enumeration_fails : (0 : Int) ≤ 0 ∧ gadget.isConcrete = true ∧ Grounded gadgets ∧
    ¬ NeverTruncated (listing (2 ^ 58) (.cramped (2 ^ 58))) gadget 0 := by
  refine ⟨Int.le_refl 0, rfl, grounded_of_entries nofun, ?_⟩
  rintro ⟨bound, _, slots, failure, feed, after, _, performed, _⟩
  have panicked : ((Query.enumerate walker gadget 0).perform
      (listing (2 ^ 58) (.cramped (2 ^ 58)))).1.isOk = false := by cbv
  rw [performed] at panicked
  cases panicked

end Binding

end HeapCensus
