import HeapCensus.Proofs.Custody
import HeapCensus.Proofs.Draining
import HeapCensus.Proofs.Transcript

set_option autoImplicit false

namespace HeapCensus

namespace Exchange

def Event.offer : Event → List (Offer × Bool)
  | .offered offer reply _ => [(offer, reply)]
  | _ => []

def offers (past : History) : List (Offer × Bool) := gather Event.offer past

theorem offers_cons (event : Event) (past : History) : offers (event :: past) = offers past ++ event.offer :=
  gather_cons Event.offer event past

theorem closing_offers (past : History) : closing past = Offer.firstClose ((offers past).map Prod.fst) := by
  induction past with
  | nil => rfl
  | cons event past ih =>
      rw [closing_cons, offers_cons, List.map_append, Offer.first_close_append, ih]
      congr 1
      cases event with
      | offered offer reply slots => cases offer <;> rfl
      | producerLeft | asked | polled | answered | consumerLeft => rfl

section Offered

variable {tag : Tag} {past : History} {stream after : Stream} {offer : Offer} {reply : Bool} {slots : List Slot}

theorem offered_answered (follows : Follows tag past stream) (consumer : stream.consumerPresent = true)
    (effect : Effect stream (.offered offer reply slots) after) :
    reply = true ↔ offer.close? ≠ none ∨ closing past = none := by
  cases effect with
  | pushed object _ opened => exact iff_of_true rfl (.inr (closing_open follows.closed opened))
  | refused object _ unheard =>
      have closed := unheard.resolve_right (fun left => Bool.false_ne_true (left.symm.trans consumer))
      refine iff_of_false Bool.false_ne_true (not_or.mpr ⟨not_not_intro rfl, ?_⟩)
      exact Option.isSome_iff_ne_none.mp (follows.closed.symm.trans closed)
  | closed offer fault closes | closedUnheard offer fault closes | closedAgain offer fault closes =>
      exact iff_of_true rfl (.inl (closes.symm ▸ Option.some_ne_none _))

theorem offered_taken (follows : Follows tag past stream) (consumer : stream.consumerPresent = true)
    (taken : accepted past = Offer.pushed ((offers past).map Prod.fst))
    (effect : Effect stream (.offered offer reply slots) after) :
    accepted (.offered offer reply slots :: past) =
      Offer.pushed ((offers (.offered offer reply slots :: past)).map Prod.fst) := by
  -- What is accepted is what is pushed before the first close.
  have more : (offers (.offered offer reply slots :: past)).map Prod.fst = (offers past).map Prod.fst ++ [offer] := by
    rw [offers_cons, List.map_append]
    rfl
  rw [more, accepted_cons, taken]
  by_cases opened : closing past = none
  · rw [Offer.pushed_open ((closing_offers past).symm.trans opened)]
    have told := offered_answered follows consumer effect
    cases offer with
    | push object =>
        obtain rfl := told.mpr (.inr opened)
        rfl
    | finish | fail message => rfl
  · rw [Offer.pushed_closed (closing_offers past ▸ opened)]
    have told := offered_answered follows consumer effect
    cases offer with
    | push object =>
        obtain rfl : reply = false := Bool.eq_false_iff.mpr fun yes =>
          (told.mp yes).elim (fun closes => closes rfl) opened
        exact List.append_nil _
    | finish | fail message => exact List.append_nil _

end Offered

end Exchange

namespace Feed

variable {ω : Type}

def rest (feed : Feed ω) : Producer ω := feed.producer.getD (.stop ())

structure Ready (feed : Feed ω) : Prop where
  room : 0 < feed.stream.capacity
  consumer : feed.stream.consumerPresent = true
  present : feed.stream.producerPresent = feed.producer.isSome

end Feed

namespace Draining

open Dialogue (Speaks)
open Exchange (History Event Effect Follows accepted handed closing offers)

variable {ω : Type}

def sees (draining : Draining ω) : Turn ω → List ω
  | .produce =>
      match draining.feed.producer with
      | some (.act _ _) => [draining.world]
      | _ => []
  | .poll | .elsewhere _ => []

def seen : Draining ω → List (Turn ω) → List ω
  | _, [] => []
  | draining, turn :: turns => draining.sees turn ++ (draining.turn turn).seen turns

/-- What the turns so far say of a feed, told by what its producer has said. -/
structure Attends (whole : Producer ω) (tag : Tag) (past : History) (worlds : List ω) (draining : Draining ω) :
    Prop where
  follows : Follows tag past draining.feed.stream
  spoken : Speaks whole worlds (offers past) draining.feed.rest
  answered : Offer.Answered (offers past)
  taken : accepted past = Offer.pushed ((offers past).map Prod.fst)
  given : draining.given = handed past
  ended : draining.feed.stream.ended = true ↔ .ended ∈ draining.told

section Turns

variable {whole : Producer ω} {tag : Tag} {past : History} {worlds : List ω} {draining : Draining ω}

theorem ready_effect {stream after : Stream} {producer next : Option (Producer ω)} {event : Event}
    (ready : (Feed.mk stream producer).Ready) (effect : Effect stream event after) (stays : event ≠ .consumerLeft)
    (present : after.producerPresent = next.isSome) : (Feed.mk after next).Ready where
  room := (Exchange.capacity_effect effect).symm ▸ ready.room
  consumer := (Exchange.consumer_effect effect stays).trans ready.consumer
  present := present

theorem ready_offered {stream after : Stream} {producer : Producer ω} (next : Producer ω) {offer : Offer} {reply : Bool}
    (ready : (Feed.mk stream (some producer)).Ready) (accept : stream.accept offer = some (reply, after)) :
    (Feed.mk after (some next)).Ready := by
  have effect := Exchange.accept_effect ready.present accept
  have stays := (Exchange.present_effect effect (fun same => by cases same)).trans ready.present
  exact ready_effect ready effect (fun same => by cases same) stays

theorem ready_turn (turn : Turn ω) (ready : draining.feed.Ready) : (draining.turn turn).feed.Ready := by
  obtain ⟨⟨stream, producer⟩, world, told⟩ := draining
  cases turn with
  | elsewhere world => exact ready
  | poll =>
      have effect := Exchange.poll_effect stream ready.consumer
      have stays := (Exchange.present_effect effect (fun same => by cases same)).trans ready.present
      exact ready_effect ready effect (fun same => by cases same) stays
  | produce =>
      cases producer with
      | none => exact ready
      | some producer =>
          cases producer with
          | stop result => exact ready_effect ready (.producerLeft stream) (fun same => by cases same) rfl
          | act change resume => exact ⟨ready.room, ready.consumer, ready.present⟩
          | call offer resume =>
              cases accept : stream.accept offer with
              | none =>
                  simp only [turn, Feed.move, accept, Activity.run]
                  exact ready
              | some accepted =>
                  simp only [turn, Feed.move, accept, Activity.run]
                  exact ready_offered _ ready accept

theorem ready_run (turns : List (Turn ω)) (ready : draining.feed.Ready) : (draining.run turns).feed.Ready := by
  induction turns generalizing draining with
  | nil => exact ready
  | cons turn turns ih => exact ih (ready_turn turn ready)

theorem ready_start (tag : Tag) (capacity : Nat) (producer : Producer ω) :
    (Feed.start tag capacity producer).Ready :=
  ⟨Nat.le_max_right capacity 1, rfl, rfl⟩

theorem attends_start (whole : Producer ω) (tag : Tag) (capacity : Nat) (world : ω) :
    Attends whole tag [] [] (start (Feed.start tag capacity whole) world) where
  follows := Exchange.follows_start tag capacity
  spoken := .here whole
  answered := fun _ _ _ present => nomatch present
  taken := rfl
  given := rfl
  ended := iff_of_false nofun nofun

theorem attends_moved {event : Event} {stream : Stream} {producer : Option (Producer ω)}
    (attends : Attends whole tag past worlds draining) (effect : Effect draining.feed.stream event stream)
    (quiet : event.handed = []) (unheard : event ≠ .polled .ended)
    (spoken : Speaks whole worlds (offers (event :: past)) (Feed.mk stream producer).rest)
    (answered : Offer.Answered (offers (event :: past)))
    (taken : accepted (event :: past) = Offer.pushed ((offers (event :: past)).map Prod.fst)) :
    Attends whole tag (event :: past) worlds ⟨⟨stream, producer⟩, draining.world, draining.told⟩ where
  follows := Exchange.follows_effect attends.follows effect
  spoken := spoken
  answered := answered
  taken := taken
  given := by
    rw [Exchange.handed_cons, quiet, List.append_nil]
    exact attends.given
  ended := by
    rw [Exchange.ended_effect effect, or_iff_right unheard]
    exact attends.ended

theorem attends_left (attends : Attends whole tag past worlds draining)
    (spoken : Speaks whole worlds (offers past) (.stop ())) :
    Attends whole tag (.producerLeft :: past) worlds
      ⟨⟨draining.feed.stream.dropProducer, none⟩, draining.world, draining.told⟩ := by
  have same : offers (.producerLeft :: past) = offers past :=
    (Exchange.offers_cons _ past).trans (List.append_nil _)
  refine attends_moved attends (.producerLeft _) rfl nofun ?_ (same ▸ attends.answered) ?_
  · rw [same]
    exact spoken
  · rw [same, ← attends.taken]
    exact (Exchange.accepted_cons _ past).trans (List.append_nil _)

theorem attends_offered {offer : Offer} {resume : Bool → Producer ω} {reply : Bool} {after : Stream}
    (attends : Attends whole tag past worlds draining) (ready : draining.feed.Ready)
    (held : draining.feed.producer = some (.call offer resume))
    (accept : draining.feed.stream.accept offer = some (reply, after)) :
    ∃ past, Attends whole tag past worlds ⟨⟨after, some (resume reply)⟩, draining.world, draining.told⟩ := by
  have present : draining.feed.stream.producerPresent = true := by
    rw [ready.present, held]
    rfl
  have effect := Exchange.accept_effect present accept
  have told := Exchange.offered_answered attends.follows ready.consumer effect
  have spoken : Speaks whole worlds (offers past) (.call offer resume) := by
    have here := attends.spoken
    rwa [Feed.rest, held] at here
  refine ⟨_, attends_moved attends effect rfl nofun ?_ ?_ ?_⟩
  · rw [Exchange.offers_cons]
    exact Dialogue.speaks_call spoken reply
  · rw [Exchange.offers_cons]
    exact Offer.answered_snoc attends.answered (Exchange.closing_offers past ▸ told)
  · exact Exchange.offered_taken attends.follows ready.consumer attends.taken effect

theorem attends_produce (attends : Attends whole tag past worlds draining) (ready : draining.feed.Ready) :
    ∃ past, Attends whole tag past (worlds ++ draining.sees .produce) (draining.turn .produce) := by
  obtain ⟨⟨stream, producer⟩, world, told⟩ := draining
  cases producer with
  | none => exact ⟨past, (List.append_nil worlds).symm ▸ attends⟩
  | some producer =>
      cases producer with
      | stop result => exact ⟨_, (List.append_nil worlds).symm ▸ attends_left attends attends.spoken⟩
      | act change resume =>
          exact ⟨past, { attends with spoken := Dialogue.speaks_act attends.spoken world }⟩
      | call offer resume =>
          have quiet : worlds ++ sees ⟨⟨stream, some (.call offer resume)⟩, world, told⟩ .produce = worlds :=
            List.append_nil worlds
          rw [quiet]
          cases accept : stream.accept offer with
          | none =>
              simp only [turn, Feed.move, accept, Activity.run]
              exact ⟨past, attends⟩
          | some accepted =>
              simp only [turn, Feed.move, accept, Activity.run]
              exact attends_offered attends ready rfl accept

theorem attends_poll (attends : Attends whole tag past worlds draining) (ready : draining.feed.Ready) :
    Attends whole tag (.polled draining.feed.stream.poll.1 :: past) worlds (draining.turn .poll) := by
  have effect := Exchange.poll_effect draining.feed.stream ready.consumer
  have same : offers (.polled draining.feed.stream.poll.1 :: past) = offers past :=
    (Exchange.offers_cons _ past).trans (List.append_nil _)
  constructor
  case follows => exact Exchange.follows_effect attends.follows effect
  case spoken => exact same ▸ attends.spoken
  case answered => exact same ▸ attends.answered
  case taken =>
    rw [same, ← attends.taken]
    exact (Exchange.accepted_cons _ past).trans (List.append_nil _)
  case given =>
    have more : (draining.turn .poll).given = draining.given ++ draining.feed.stream.poll.1.item?.toList :=
      List.filterMap_append.trans (congrArg _ (by cases draining.feed.stream.poll.1 <;> rfl))
    rw [more, attends.given, Exchange.handed_cons]
    cases draining.feed.stream.poll.1 <;> rfl
  case ended =>
    refine (Exchange.ended_effect effect).trans ?_
    change _ ↔ .ended ∈ draining.told ++ [draining.feed.stream.poll.1]
    rw [List.mem_append, List.mem_singleton, attends.ended, or_comm, Event.polled.injEq, eq_comm]

theorem attends_turn (turn : Turn ω) (attends : Attends whole tag past worlds draining)
    (ready : draining.feed.Ready) :
    ∃ past, Attends whole tag past (worlds ++ draining.sees turn) (draining.turn turn) := by
  cases turn with
  | produce => exact attends_produce attends ready
  | poll => exact ⟨_, (List.append_nil worlds).symm ▸ attends_poll attends ready⟩
  | elsewhere world =>
      refine ⟨past, (List.append_nil worlds).symm ▸ ?_⟩
      exact ⟨attends.follows, attends.spoken, attends.answered, attends.taken, attends.given, attends.ended⟩

theorem attends_run (turns : List (Turn ω)) (attends : Attends whole tag past worlds draining)
    (ready : draining.feed.Ready) :
    ∃ past, Attends whole tag past (worlds ++ draining.seen turns) (draining.run turns) := by
  induction turns generalizing past worlds draining with
  | nil => exact ⟨past, (List.append_nil worlds).symm ▸ attends⟩
  | cons turn turns ih =>
      obtain ⟨_, next⟩ := attends_turn turn attends ready
      rw [seen, ← List.append_assoc]
      exact ih next (ready_turn turn ready)

end Turns

section Leaving

open Activity (Course)

theorem accept_unheard {stream : Stream} (left : stream.consumerPresent = false) (offer : Offer) :
    ∃ reply after, stream.accept offer = some (reply, after) ∧ after.consumerPresent = false ∧
      (reply = true ↔ offer.close? ≠ none) := by
  have room : stream.isFull = false := by rw [Stream.isFull, left, Bool.false_and]
  have closes : ∀ fault, ∃ after, stream.close fault = some after ∧ after.consumerPresent = false := by
    intro fault
    by_cases closed : stream.closed = true
    · exact ⟨stream, Stream.close_closed closed fault, left⟩
    · refine ⟨_, Stream.close_open (eq_false_of_ne_true closed) room fault, ?_⟩
      rw [Stream.send_unheard left]
      exact left
  cases offer with
  | push object =>
      by_cases closed : stream.closed = true
      · exact ⟨false, stream, Stream.push_closed closed object, left, iff_of_false Bool.false_ne_true (absurd rfl)⟩
      · refine ⟨_, _, Stream.push_open (eq_false_of_ne_true closed) room object, ?_, ?_⟩
        · rw [Stream.send_unheard left]
          exact left
        · rw [left]
          exact iff_of_false Bool.false_ne_true (absurd rfl)
  | finish =>
      obtain ⟨after, done, gone⟩ := closes none
      exact ⟨true, after, congrArg (Option.map _) done, gone, iff_of_true rfl (Option.some_ne_none _)⟩
  | fail message =>
      obtain ⟨after, done, gone⟩ := closes (some message)
      exact ⟨true, after, congrArg (Option.map _) done, gone, iff_of_true rfl (Option.some_ne_none _)⟩

theorem run_out_speaks {producer : Producer ω} {stream : Stream} (left : stream.consumerPresent = false)
    {steps : List (ω × ω)} (course : Course (Feed.runOut stream producer) steps ()) :
    ∃ said, Speaks producer (steps.map Prod.fst) said (.stop ()) ∧ Offer.Unheard said := by
  induction producer generalizing stream steps with
  | stop result =>
      cases course
      exact ⟨[], .here _, fun _ _ member => nomatch member⟩
  | act change resume ih =>
      cases course with
      | act _ _ world steps _ onwards =>
          obtain ⟨said, spoken, unheard⟩ := ih world left onwards
          exact ⟨said, .act change resume world _ said _ spoken, unheard⟩
  | call offer resume ih =>
      obtain ⟨reply, after, accepted, gone, told⟩ := accept_unheard left offer
      simp only [Feed.runOut, accepted] at course
      obtain ⟨said, spoken, unheard⟩ := ih reply gone course
      refine ⟨(offer, reply) :: said, .call offer resume reply _ said _ spoken, ?_⟩
      intro other answer member
      rcases List.mem_cons.mp member with same | later
      · obtain ⟨rfl, rfl⟩ := Prod.mk.inj same
        exact told
      · exact unheard other answer later

theorem leave_speaks (feed : Feed ω) {steps : List (ω × ω)} (course : Course feed.leave steps ()) :
    ∃ said, Speaks feed.rest (steps.map Prod.fst) said (.stop ()) ∧ Offer.Unheard said := by
  obtain ⟨stream, producer⟩ := feed
  cases producer with
  | none =>
      cases course
      exact ⟨[], .here _, fun _ _ member => nomatch member⟩
  | some producer => exact run_out_speaks rfl course

end Leaving

def Satisfied (limit : Nat) (draining : Draining ω) : Prop :=
  draining.given.length = limit ∧ .ended ∉ draining.told ∨ draining.given.length < limit ∧ .ended ∈ draining.told

section Satisfied

variable {whole : Producer ω} {tag : Tag} {past : History} {worlds others : List ω} {draining : Draining ω}
  {limit : Nat} {more : List (Offer × Bool)}

theorem given_taken (attends : Attends whole tag past worlds draining) (ready : draining.feed.Ready) :
    draining.given <+: Offer.pushed ((offers past).map Prod.fst) := by
  rw [attends.given, ← attends.taken]
  cases ended : draining.feed.stream.ended with
  | true => exact (attends.follows.spent ended).whole ▸ List.prefix_rfl
  | false =>
      obtain ⟨waiting, _, same⟩ := attends.follows.waiting ready.consumer ended
      exact ⟨waiting, same.symm⟩

theorem ended_closed (attends : Attends whole tag past worlds draining) (ready : draining.feed.Ready)
    (after : Speaks draining.feed.rest others more (.stop ()))
    (closes : Offer.firstClose ((offers past ++ more).map Prod.fst) ≠ none)
    (ended : draining.feed.stream.ended = true) : closing past ≠ none := by
  rcases (attends.follows.spent ended).silent with closed | absent
  · exact Option.isSome_iff_ne_none.mp (attends.follows.closed.symm.trans closed)
  · have gone : draining.feed.producer = none :=
      Option.isNone_iff_eq_none.mp (Option.isSome_eq_false_iff.mp (ready.present.symm.trans absent))
    rw [Feed.rest, gone] at after
    obtain ⟨_, rfl, _⟩ := Dialogue.speaks_stop after
    rw [List.append_nil] at closes
    exact Exchange.closing_offers past ▸ closes

theorem heard_whole (attends : Attends whole tag past worlds draining) (ready : draining.feed.Ready)
    (after : Speaks draining.feed.rest others more (.stop ()))
    (closes : Offer.firstClose ((offers past ++ more).map Prod.fst) ≠ none)
    (ended : draining.feed.stream.ended = true) :
    let offered := (offers past ++ more).map Prod.fst
    closing past ≠ none ∧ draining.given = Offer.pushed offered ∧
      draining.feed.stream.fault = (Offer.firstClose offered).join := by
  intro offered
  have same : offered = (offers past).map Prod.fst ++ more.map Prod.fst := List.map_append
  have closed := ended_closed attends ready after closes ended
  have first := Exchange.closing_offers past
  have still : Offer.firstClose offered = closing past := by
    rw [same, Offer.first_close_append, ← first, Option.or_of_isSome (Option.isSome_iff_ne_none.mpr closed)]
  refine ⟨closed, ?_, ?_⟩
  · rw [same, Offer.pushed_closed (first ▸ closed), ← attends.taken, attends.given]
    exact (attends.follows.spent ended).whole.symm
  · obtain ⟨fault, told⟩ := Option.ne_none_iff_exists'.mp closed
    rw [attends.follows.fault, Exchange.faultOf, if_pos ended, still, told]
    rfl

theorem satisfied_told (attends : Attends whole tag past worlds draining) (ready : draining.feed.Ready)
    (satisfied : draining.Satisfied limit) (after : Speaks draining.feed.rest others more (.stop ()))
    (unheard : Offer.Unheard more) (closes : Offer.firstClose ((offers past ++ more).map Prod.fst) ≠ none) :
    let offered := (offers past ++ more).map Prod.fst
    Offer.Truthful limit (offers past ++ more) ∧ draining.given = (Offer.pushed offered).take limit ∧
      draining.feed.stream.fault =
        if limit ≤ (Offer.pushed offered).length then none else (Offer.firstClose offered).join := by
  -- What has been said in the end decides what the consumer has been handed and which fault it sees.
  intro offered
  have taken := given_taken attends ready
  have same : offered = (offers past).map Prod.fst ++ more.map Prod.fst := List.map_append
  rcases satisfied with ⟨all, running⟩ | ⟨few, heard⟩
  · have prefixed : draining.given <+: Offer.pushed offered := same ▸ taken.trans (Offer.pushed_prefix _ _)
    have enough : limit ≤ (Offer.pushed offered).length := all ▸ prefixed.length_le
    refine ⟨Offer.truthful_append attends.answered unheard (.inl (all ▸ taken.length_le)), ?_, ?_⟩
    · rw [← all]
      exact List.prefix_iff_eq_take.mp prefixed
    · rw [attends.follows.fault, Exchange.faultOf, if_neg (mt attends.ended.mp running), if_pos enough]
  · obtain ⟨closed, given, fault⟩ := heard_whole attends ready after closes (attends.ended.mpr heard)
    refine ⟨Offer.truthful_append attends.answered unheard (.inr (Exchange.closing_offers past ▸ closed)), ?_, ?_⟩
    · rw [← given, List.take_of_length_le (Nat.le_of_lt few)]
    · rw [← given, if_neg (Nat.not_le_of_lt few)]
      exact fault

end Satisfied

end Draining

end HeapCensus
