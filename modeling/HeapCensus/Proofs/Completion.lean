import HeapCensus.Proofs.Attendance

set_option autoImplicit false

namespace HeapCensus

namespace Dialogue

variable {ω κ ρ α β : Type} {steady : ω → Prop}

inductive Lasts (steady : ω → Prop) : Dialogue ω κ ρ α → Nat → Prop
  | stop (result : α) (moves : Nat) : Lasts steady (.stop result) moves
  | act {change : ω → ω} {resume : ω → Dialogue ω κ ρ α} {moves : Nat} :
      (∀ world, steady world → steady (change world)) →
      (∀ world, steady world → Lasts steady (resume world) moves) →
      Lasts steady (.act change resume) (moves + 1)
  | call {command : κ} {resume : ρ → Dialogue ω κ ρ α} {moves : Nat} :
      (∀ reply, Lasts steady (resume reply) moves) → Lasts steady (.call command resume) (moves + 1)

theorem lasts_longer {dialogue : Dialogue ω κ ρ α} {moves more : Nat} (lasts : Lasts steady dialogue moves)
    (fits : moves ≤ more) : Lasts steady dialogue more := by
  induction lasts generalizing more with
  | stop => exact .stop _ _
  | act keeps _ ih =>
      cases more with
      | zero => exact absurd fits (Nat.not_succ_le_zero _)
      | succ more => exact .act keeps fun world held => ih world held (Nat.le_of_succ_le_succ fits)
  | call _ ih =>
      cases more with
      | zero => exact absurd fits (Nat.not_succ_le_zero _)
      | succ more => exact .call fun reply => ih reply (Nat.le_of_succ_le_succ fits)

theorem lasts_bind {first : Dialogue ω κ ρ β} {next : β → Dialogue ω κ ρ α} {moves more : Nat}
    (lasts : Lasts steady first moves) (later : ∀ value, Lasts steady (next value) more) :
    Lasts steady (Dialogue.bind first next) (moves + more) := by
  induction lasts with
  | stop value moves => exact lasts_longer (later value) (Nat.le_add_left more moves)
  | act keeps _ ih =>
      rw [Nat.add_right_comm]
      exact .act keeps ih
  | call _ ih =>
      rw [Nat.add_right_comm]
      exact .call ih

end Dialogue

namespace Draining

open Dialogue (Speaks Lasts)
open Exchange (History closing offers)

variable {ω : Type} {steady : ω → Prop} {whole : Producer ω} {items : List (Option HeapObject)}
  {fault : Option String} {tag : Tag} {past : History} {worlds : List ω} {moves : Nat} {draining : Draining ω}

/-- What a producer has pushed and how it has closed in the end, if it finds steady states and is answered
truthfully. -/
def AmountsTo (steady : ω → Prop) (whole : Producer ω) (items : List (Option HeapObject))
    (fault : Option String) : Prop :=
  ∀ worlds said, Speaks whole worlds said (.stop ()) → (∀ world ∈ worlds, steady world) → Offer.Answered said →
    Offer.pushed (said.map Prod.fst) = items ∧ Offer.firstClose (said.map Prod.fst) = some fault

structure Within (steady : ω → Prop) (moves : Nat) (draining : Draining ω) : Prop where
  world : steady draining.world
  ready : draining.feed.Ready
  lasts : ∀ producer, draining.feed.producer = some producer → ∃ fewer, fewer < moves ∧ Lasts steady producer fewer
  heard : Heard draining

def effort (moves : Nat) (feed : Feed ω) : Nat :=
  2 * moves + feed.stream.queue.length + if feed.stream.ended then 0 else 1

def Shrinks (steady : ω → Prop) (moves : Nat) (draining : Draining ω) (turn : Turn ω) : Prop :=
  ∃ fewer, Within steady fewer (draining.turn turn) ∧
    (effort fewer (draining.turn turn).feed < effort moves draining.feed ∨
      fewer = moves ∧ (draining.turn turn).feed = draining.feed ∧ Rests draining.feed turn)

theorem effort_less {fewer : Nat} {stream after : Stream} {producer next : Option (Producer ω)} (less : fewer < moves)
    (longer : after.queue.length ≤ stream.queue.length + 1) (same : after.ended = stream.ended) :
    effort fewer ⟨after, next⟩ < effort moves ⟨stream, producer⟩ := by
  simp only [effort, same]
  omega

theorem produce_shrinks (within : Within steady moves draining) : Shrinks steady moves draining .produce := by
  have ready := ready_turn .produce within.ready
  obtain ⟨⟨stream, producer⟩, world, told⟩ := draining
  cases producer with
  | none => exact ⟨moves, within, .inr ⟨rfl, rfl, .inl rfl⟩⟩
  | some producer =>
      obtain ⟨fewer, less, lasts⟩ := within.lasts producer rfl
      cases lasts with
      | stop result =>
          refine ⟨fewer, ⟨within.world, ready, ?_, within.heard⟩, .inl (effort_less less (Nat.le_succ _) rfl)⟩
          rintro _ ⟨⟩
      | @act change resume fewer keeps later =>
          refine ⟨fewer + 1, ⟨keeps world within.world, ready, ?_, within.heard⟩,
            .inl (effort_less less (Nat.le_succ _) rfl)⟩
          rintro _ ⟨⟩
          exact ⟨fewer, Nat.lt_succ_self fewer, later world within.world⟩
      | @call offer resume fewer later =>
          cases accept : stream.accept offer with
          | none =>
              -- A producer without room leaves the feed as it is: it is the turn of the consumer.
              have waits : turn ⟨⟨stream, some (.call offer resume)⟩, world, told⟩ .produce =
                  ⟨⟨stream, some (.call offer resume)⟩, world, told⟩ := by
                simp only [turn, Feed.move, accept, Activity.run]
              refine ⟨moves, waits.symm ▸ within, .inr ⟨rfl, congrArg feed waits, .inr ?_⟩⟩
              exact accept_waits within.ready.room accept
          | some accepted =>
              obtain ⟨reply, after⟩ := accepted
              have moved : turn ⟨⟨stream, some (.call offer resume)⟩, world, told⟩ .produce =
                  ⟨⟨after, some (resume reply)⟩, world, told⟩ := by
                simp only [turn, Feed.move, accept, Activity.run]
              have effect := Exchange.accept_effect within.ready.present accept
              have still : after.ended = stream.ended :=
                Bool.eq_iff_iff.mpr ((Exchange.ended_effect effect).trans (or_iff_right fun same => by cases same))
              rw [moved] at ready
              rw [Shrinks, moved]
              refine ⟨fewer + 1, ⟨within.world, ready, ?_, ?_⟩,
                .inl (effort_less less (Exchange.offered_queue effect) still)⟩
              · rintro _ ⟨⟩
                exact ⟨fewer, Nat.lt_succ_self fewer, later reply⟩
              · obtain ⟨before, ends, heard, running, ended⟩ := within.heard
                exact ⟨before, ends, heard, running, still ▸ ended⟩

theorem poll_effort {stream after : Stream} {producer : Option (Producer ω)} {polled : Polled}
    (present : stream.producerPresent = producer.isSome) (effect : Exchange.Effect stream (.polled polled) after) :
    effort moves ⟨after, producer⟩ < effort moves ⟨stream, producer⟩ ∨
      after = stream ∧ (stream.ended = true ∨ stream.queue = [] ∧ producer ≠ none) := by
  cases effect with
  | took object rest _ running queue | finished fault rest _ running queue =>
      refine .inl ?_
      simp only [effort, queue, running, List.length_cons, Bool.false_eq_true, if_true, if_false]
      omega
  | stopped _ running =>
      refine .inl ?_
      simp only [effort, running, Bool.false_eq_true, if_true, if_false]
      omega
  | foundNothing _ running queue staying =>
      exact .inr ⟨rfl, .inr ⟨queue, Option.isSome_iff_ne_none.mp (present.symm.trans staying)⟩⟩
  | spent ended => exact .inr ⟨rfl, .inl ended⟩

theorem poll_shrinks (within : Within steady moves draining) : Shrinks steady moves draining .poll := by
  have ready := ready_turn .poll within.ready
  refine ⟨moves, ⟨within.world, ready, within.lasts, heard_polled within.heard within.ready.consumer⟩, ?_⟩
  have effect := Exchange.poll_effect draining.feed.stream within.ready.consumer
  rcases poll_effort within.ready.present effect with less | ⟨same, rests⟩
  · exact .inl less
  · exact .inr ⟨rfl, congrArg (Feed.mk · draining.feed.producer) same, rests⟩

theorem within_wanes : Wanes steady fun left draining =>
    ∃ moves, Within steady moves draining ∧ left = effort moves draining.feed := by
  rintro _ draining turn ⟨moves, within, rfl⟩ allowed
  have shrinks : Shrinks steady moves draining turn := by
    cases turn with
    | produce => exact produce_shrinks within
    | poll => exact poll_shrinks within
    | elsewhere world =>
        exact ⟨moves, ⟨allowed, within.ready, within.lasts, within.heard⟩, .inr ⟨rfl, rfl, trivial⟩⟩
  obtain ⟨fewer, next, step⟩ := shrinks
  refine ⟨_, ⟨fewer, next, rfl⟩, step.imp_right ?_⟩
  rintro ⟨rfl, same, rests⟩
  exact ⟨congrArg (effort fewer) same, same, rests⟩

theorem within_start {capacity : Nat} {world : ω} (held : steady world) (lasts : Lasts steady whole moves) :
    Within steady (moves + 1) (start (Feed.start tag capacity whole) world) where
  world := held
  ready := ready_start tag capacity whole
  lasts := by
    rintro _ ⟨⟩
    exact ⟨moves, Nat.lt_succ_self moves, lasts⟩
  heard := ⟨[], 0, rfl, nofun, iff_of_false nofun (Nat.lt_irrefl 0)⟩

theorem run_within (turns : List (Turn ω)) (within : Within steady moves draining)
    (allowed : ∀ turn ∈ turns, Allowed steady turn) : ∃ fewer, Within steady fewer (draining.run turns) := by
  obtain ⟨_, ⟨fewer, last, _⟩, _⟩ := wanes_run within_wanes turns ⟨moves, within, rfl⟩ allowed
  exact ⟨fewer, last⟩

theorem within_end (rounds : List (List (Turn ω))) (within : Within steady moves draining)
    (allowed : ∀ turn ∈ rounds.flatten, Allowed steady turn) (fair : Fair rounds)
    (enough : effort moves draining.feed < rounds.length) : .ended ∈ (draining.run rounds.flatten).told := by
  refine wanes_end within_wanes ?_ rounds ⟨moves, within, rfl⟩ allowed fair enough
  rintro _ draining ⟨_, within, _⟩ ended
  exact (ended_iff within.heard).mp ended

theorem sees_world (draining : Draining ω) (turn : Turn ω) : ∀ world ∈ draining.sees turn, world = draining.world := by
  cases turn with
  | poll | elsewhere => exact nofun
  | produce =>
      rw [sees]
      split
      · exact fun world member => List.mem_singleton.mp member
      · exact nofun

theorem seen_steady (turns : List (Turn ω)) (within : Within steady moves draining)
    (allowed : ∀ turn ∈ turns, Allowed steady turn) : ∀ world ∈ draining.seen turns, steady world := by
  induction turns generalizing draining moves with
  | nil => exact nofun
  | cons turn turns ih =>
      obtain ⟨now, later⟩ := List.forall_mem_cons.mp allowed
      obtain ⟨fewer, next⟩ := run_within [turn] within (List.forall_mem_singleton.mpr now)
      refine List.forall_mem_append.mpr ⟨fun world member => ?_, ih next later⟩
      exact sees_world draining turn world member ▸ within.world

theorem attends_drains (amounts : AmountsTo steady whole items fault)
    (attends : Attends whole tag past worlds draining) (within : Within steady moves draining)
    (looked : ∀ world ∈ worlds, steady world) : Drains items fault draining := by
  obtain ⟨others, more, _, after, same, answered⟩ :=
    Offer.speaks_on draining.world draining.feed.rest attends.answered
  have held : ∀ world ∈ worlds ++ others, steady world :=
    List.forall_mem_append.mpr ⟨looked, fun world member => same world member ▸ within.world⟩
  obtain ⟨pushed, closes⟩ := amounts _ _ (Dialogue.speaks_trans attends.spoken after) held answered
  constructor
  case told =>
    obtain ⟨before, ends, told, running, _⟩ := within.heard
    exact ⟨before, ends, told, running⟩
  case partly =>
    have taken := given_taken attends within.ready
    rw [← pushed, List.map_append]
    exact taken.trans (Offer.pushed_prefix _ _)
  case wholly =>
    intro heard
    have closed := closes ▸ Option.some_ne_none fault
    obtain ⟨_, given, told⟩ := heard_whole attends within.ready after closed (attends.ended.mpr heard)
    exact ⟨given.trans pushed, told.trans (congrArg Option.join closes)⟩
  case unfinished =>
    intro unheard
    rw [attends.follows.fault, Exchange.faultOf, if_neg (mt attends.ended.mp unheard)]

theorem start_drains {capacity : Nat} {world : ω} (held : steady world) (lasts : Lasts steady whole moves)
    (amounts : AmountsTo steady whole items fault) (turns : List (Turn ω))
    (allowed : ∀ turn ∈ turns, Allowed steady turn) :
    Drains items fault ((start (Feed.start tag capacity whole) world).run turns) := by
  have within : Within steady (moves + 1) (start (Feed.start tag capacity whole) world) := within_start held lasts
  obtain ⟨fewer, last⟩ := run_within turns within allowed
  obtain ⟨past, attends⟩ := attends_run turns (attends_start whole tag capacity world) within.ready
  exact attends_drains amounts attends last (seen_steady turns within allowed)

theorem start_ends {capacity : Nat} {world : ω} (held : steady world) (lasts : Lasts steady whole moves)
    (rounds : List (List (Turn ω))) (allowed : ∀ turn ∈ rounds.flatten, Allowed steady turn) (fair : Fair rounds)
    (enough : 2 * moves + 3 < rounds.length) :
    .ended ∈ ((start (Feed.start tag capacity whole) world).run rounds.flatten).told :=
  within_end rounds (within_start held lasts) allowed fair enough

end Draining

end HeapCensus
