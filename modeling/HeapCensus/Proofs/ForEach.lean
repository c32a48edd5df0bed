import HeapCensus.Proofs.Attendance
import HeapCensus.Proofs.TagAccounts

set_option autoImplicit false

namespace HeapCensus

open Activity (Course)

namespace Activity

variable {σ α : Type}

def alone : Activity σ α → σ → List (σ × σ)
  | .stop _, _ => []
  | .act change resume, state => (state, change state) :: alone (resume state) (change state)
  | .call command _, _ => nomatch command

theorem course_alone (activity : Activity σ α) (state : σ) :
    Course activity (alone activity state) (run activity state).1 := by
  induction activity generalizing state with
  | stop result => exact .stop result
  | act change resume ih => exact .act change resume state _ _ (ih state (change state))
  | call command => exact nomatch command

end Activity

namespace Draining

variable {ω : Type}

/-- The steps of an activity that moves a feed, as turns. The states that it finds are what others have left
behind. -/
def Turns (steps : List (ω × ω)) (draining : Draining ω) (after : Feed ω) (found : List Polled) : Prop :=
  ∃ turns world, draining.run turns = ⟨after, world, draining.told ++ found⟩ ∧
    draining.seen turns = steps.map Prod.fst

variable {draining : Draining ω} {after last : Feed ω} {steps others : List (ω × ω)} {found more : List Polled}

theorem run_append (draining : Draining ω) (turns later : List (Turn ω)) :
    draining.run (turns ++ later) = (draining.run turns).run later :=
  List.foldl_append

theorem seen_append (draining : Draining ω) (turns later : List (Turn ω)) :
    draining.seen (turns ++ later) = draining.seen turns ++ (draining.run turns).seen later := by
  induction turns generalizing draining with
  | nil => rfl
  | cons turn turns ih => rw [List.cons_append, seen, ih, seen, List.append_assoc]; rfl

theorem turns_ready (made : Turns steps draining after found) (ready : draining.feed.Ready) : after.Ready := by
  obtain ⟨turns, world, ran, _⟩ := made
  have still := ready_run turns ready
  rwa [ran] at still

theorem turns_none : Turns [] draining draining.feed [] :=
  ⟨[], draining.world, by rw [List.append_nil]; rfl, rfl⟩

theorem turns_onwards (before : Turns steps draining after found) :
    ∃ world, ∀ {others last more}, Turns others ⟨after, world, draining.told ++ found⟩ last more →
      Turns (steps ++ others) draining last (found ++ more) := by
  obtain ⟨turns, between, ran, sees⟩ := before
  refine ⟨between, ?_⟩
  rintro others last more ⟨later, world, next, looks⟩
  refine ⟨turns ++ later, world, ?_, ?_⟩
  · rw [run_append, ran, next, List.append_assoc]
  · rw [seen_append, ran, sees, looks, List.map_append]

theorem turns_trans (before : Turns steps draining after found)
    (onwards : ∀ world, Turns others ⟨after, world, draining.told ++ found⟩ last more) :
    Turns (steps ++ others) draining last (found ++ more) := by
  obtain ⟨world, joined⟩ := turns_onwards before
  exact joined (onwards world)

theorem turns_poll : Turns [] draining ⟨draining.feed.stream.poll.2, draining.feed.producer⟩
    [draining.feed.stream.poll.1] :=
  ⟨[.poll], draining.world, rfl, rfl⟩

theorem turns_act {stream : Stream} {change : ω → ω} {resume : ω → Producer ω} {told : List Polled} (world seen : ω) :
    Turns [(seen, change seen)] ⟨⟨stream, some (.act change resume)⟩, world, told⟩ ⟨stream, some (resume seen)⟩ [] :=
  ⟨[.elsewhere seen, .produce], change seen, by rw [List.append_nil]; rfl, rfl⟩

theorem turns_stop {stream : Stream} {told : List Polled} (world : ω) :
    Turns [] ⟨⟨stream, some (.stop ())⟩, world, told⟩ ⟨stream.dropProducer, none⟩ [] :=
  ⟨[.produce], world, by rw [List.append_nil]; rfl, rfl⟩

theorem turns_offered {stream taken : Stream} {offer : Offer} {resume : Bool → Producer ω} {reply : Bool}
    {told : List Polled} (world : ω) (accepted : stream.accept offer = some (reply, taken)) :
    Turns [] ⟨⟨stream, some (.call offer resume)⟩, world, told⟩ ⟨taken, some (resume reply)⟩ [] := by
  refine ⟨[.produce], world, ?_, rfl⟩
  rw [List.append_nil, run, List.foldl_cons, List.foldl_nil]
  simp only [turn, Feed.move, accepted, Activity.run]

theorem turns_move (course : Course draining.feed.move steps after) : Turns steps draining after [] := by
  obtain ⟨⟨stream, producer⟩, world, told⟩ := draining
  cases producer with
  | none =>
      cases course
      exact turns_none
  | some producer =>
      cases producer with
      | stop result =>
          cases course
          exact turns_stop world
      | act change resume =>
          cases course with
          | act _ _ seen _ _ stopped =>
              cases stopped
              exact turns_act world seen
      | call offer resume =>
          cases accept : stream.accept offer with
          | none =>
              simp only [Feed.move, accept] at course
              cases course
              exact turns_none
          | some accepted =>
              simp only [Feed.move, accept] at course
              cases course
              exact turns_offered world accept

theorem turns_moves (amount : Nat) (course : Course (draining.feed.moves amount) steps after) :
    Turns steps draining after [] := by
  induction amount generalizing draining steps with
  | zero =>
      cases course
      exact turns_none
  | succ amount ih =>
      obtain ⟨front, moved, back, rfl, first, later⟩ := Activity.course_bind course
      refine turns_trans (turns_move first) fun world => ih ?_
      exact later

theorem turns_fill_from {producer : Producer ω} {stream : Stream} (world : ω) (told : List Polled)
    (course : Course (Feed.fillFrom stream producer) steps after) :
    Turns steps ⟨⟨stream, some producer⟩, world, told⟩ after [] := by
  induction producer generalizing stream steps world told with
  | stop result =>
      cases course
      exact turns_stop world
  | act change resume ih =>
      cases course with
      | act _ _ seen steps _ onwards =>
          exact turns_trans (turns_act world seen) fun world => ih seen world (told ++ []) onwards
  | call offer resume ih =>
      by_cases empty : stream.queue.isEmpty = true
      · cases accept : stream.accept offer with
        | none =>
            simp only [Feed.fillFrom, empty, if_true, accept] at course
            cases course
            exact turns_none
        | some accepted =>
            simp only [Feed.fillFrom, empty, if_true, accept] at course
            exact turns_trans (turns_offered world accept) fun world => ih accepted.1 world (told ++ []) course
      · simp only [Feed.fillFrom, if_neg empty] at course
        cases course
        exact turns_none

theorem turns_fill (course : Course draining.feed.fill steps after) : Turns steps draining after [] := by
  obtain ⟨⟨stream, producer⟩, world, told⟩ := draining
  cases producer with
  | none =>
      cases course
      exact turns_none
  | some producer =>
      by_cases empty : stream.queue.isEmpty = true
      · simp only [Feed.fill, empty, if_true] at course
        exact turns_fill_from world told course
      · simp only [Feed.fill, if_neg empty] at course
        cases course
        exact turns_none

def Filled (feed : Feed ω) : Prop := feed.producer = none ∨ feed.stream.queue ≠ []

theorem filled_from {producer : Producer ω} {stream : Stream} (ready : (Feed.mk stream (some producer)).Ready)
    (course : Course (Feed.fillFrom stream producer) steps after) : Filled after := by
  induction producer generalizing stream steps with
  | stop result =>
      cases course
      exact .inl rfl
  | act change resume ih =>
      cases course with
      | act _ _ seen steps _ onwards => exact ih seen ⟨ready.room, ready.consumer, ready.present⟩ onwards
  | call offer resume ih =>
      by_cases empty : stream.queue.isEmpty = true
      · cases accept : stream.accept offer with
        | none => exact absurd (List.isEmpty_iff.mp empty) (accept_waits ready.room accept)
        | some accepted =>
            obtain ⟨reply, taken⟩ := accepted
            simp only [Feed.fillFrom, empty, if_true, accept] at course
            exact ih reply (ready_offered _ ready accept) course
      · simp only [Feed.fillFrom, if_neg empty] at course
        cases course
        exact .inr (mt List.isEmpty_iff.mpr empty)

theorem filled_fill {feed : Feed ω} (ready : feed.Ready) (course : Course feed.fill steps after) : Filled after := by
  obtain ⟨stream, producer⟩ := feed
  cases producer with
  | none =>
      cases course
      exact .inl rfl
  | some producer =>
      by_cases empty : stream.queue.isEmpty = true
      · simp only [Feed.fill, empty, if_true] at course
        exact filled_from ready course
      · simp only [Feed.fill, if_neg empty] at course
        cases course
        exact .inr (mt List.isEmpty_iff.mpr empty)

theorem poll_filled {feed : Feed ω} (ready : feed.Ready) (filled : Filled feed) :
    feed.stream.poll.1 ≠ .nothing := by
  cases ended : feed.stream.ended with
  | true =>
      rw [Stream.poll_ended ended]
      exact nofun
  | false =>
      cases queue : feed.stream.queue with
      | nil =>
          have gone := filled.resolve_right (not_not_intro queue)
          have stopped : feed.stream.producerPresent = false := by rw [ready.present, gone]; rfl
          rw [Stream.poll_stopped ended queue stopped]
          exact nofun
      | cons slot rest =>
          cases slot with
          | item object =>
              rw [Stream.poll_item ended queue]
              exact nofun
          | finish fault =>
              rw [Stream.poll_finish ended queue]
              exact nofun

def Found (limit : Nat) (found : List Polled) : Prop :=
  (found.filterMap Polled.item?).length = limit ∧ .ended ∉ found ∨
    (found.filterMap Polled.item?).length < limit ∧ .ended ∈ found

theorem turns_polled {amount : Nat} {front middle : List (ω × ω)} {moved filled : Feed ω}
    (ready : draining.feed.Ready) (first : Course (draining.feed.moves amount) front moved)
    (second : Course moved.fill middle filled) :
    filled.stream.poll.1 ≠ .nothing ∧
      Turns (front ++ middle) draining ⟨filled.stream.poll.2, filled.producer⟩ [filled.stream.poll.1] := by
  have moves := turns_moves amount first
  have fills : ∀ world, Turns middle ⟨moved, world, draining.told ++ []⟩ filled [] := fun _ => turns_fill second
  have steady := turns_ready moves ready
  have still : filled.Ready := turns_ready (fills draining.world) steady
  refine ⟨poll_filled still (filled_fill steady second), ?_⟩
  have polls : ∀ world, Turns [] ⟨filled, world, draining.told ++ []⟩
      ⟨filled.stream.poll.2, filled.producer⟩ [filled.stream.poll.1] := fun _ => turns_poll
  have polled := turns_trans (turns_trans moves fills) polls
  rwa [List.append_nil] at polled

theorem turns_deliver (limit : Nat) (pacing : List Nat) {feed : Feed ω} (world : ω) (told : List Polled)
    {items : List (Option HeapObject)} (ready : feed.Ready)
    (course : Course (feed.deliver limit pacing) steps (items, after)) :
    ∃ found, Turns steps ⟨feed, world, told⟩ after found ∧ items = found.filterMap Polled.item? ∧
      Found limit found := by
  induction limit generalizing feed pacing world told steps items after with
  | zero =>
      cases course
      exact ⟨[], turns_none, rfl, .inl ⟨rfl, List.not_mem_nil⟩⟩
  | succ limit ih =>
      -- A poll takes one from the limit when it finds an item, and ends the demand when it finds the end.
      rw [Query.deliver_succ] at course
      obtain ⟨front, moved, rest, rfl, first, onwards⟩ := Activity.course_bind course
      obtain ⟨middle, filled, back, rfl, second, polls⟩ := Activity.course_bind onwards
      have start : (⟨feed, world, told⟩ : Draining ω).feed.Ready := ready
      obtain ⟨something, heard⟩ := turns_polled start first second
      cases polled : filled.stream.poll with
      | mk answer stream =>
          simp only [polled] at something heard
          simp only [Query.pollOn, polled] at polls
          cases answer with
          | nothing => exact absurd rfl something
          | ended =>
              cases polls
              rw [List.append_nil]
              exact ⟨[.ended], heard, rfl, .inr ⟨Nat.succ_pos limit, List.mem_singleton_self _⟩⟩
          | item object =>
              obtain ⟨later, ⟨others, last⟩, none, rfl, delivers, done⟩ := Activity.course_bind polls
              cases done
              obtain ⟨between, joined⟩ := turns_onwards heard
              obtain ⟨found, turns, rfl, all⟩ := ih pacing.tail between _ (turns_ready heard start) delivers
              refine ⟨.item object :: found, ?_, rfl, ?_⟩
              · rw [List.append_nil, ← List.append_assoc]
                exact joined turns
              · rcases all with ⟨enough, running⟩ | ⟨few, ended⟩
                · refine .inl ⟨congrArg (· + 1) enough, ?_⟩
                  exact List.not_mem_cons_of_ne_of_not_mem (fun same => by cases same) running
                · exact .inr ⟨Nat.succ_lt_succ few, List.mem_cons_of_mem _ ended⟩

end Draining

namespace Query

open Dialogue (Speaks)
open Draining (Satisfied)

variable {ω α : Type} {walker : Walker ω} {type : HeapClass} {tag : Tag} {bound : UInt32}

theorem course_on_world {activity : Activity ω α} {steps : List (Session ω × Session ω)} {result : α}
    (course : Course (onWorld activity) steps result) :
    Course activity (steps.map fun step => (step.1.world, step.2.world)) result := by
  induction activity generalizing steps with
  | stop result =>
      cases course
      exact .stop result
  | act change resume ih =>
      cases course with
      | act _ _ session steps _ onwards => exact .act change resume session.world _ result (ih session.world onwards)
  | call command => exact nomatch command

def lastOffer : Outcome WalkerError Nat → Offer
  | .ok _ => .finish
  | .error (.error cause) => .fail cause.message
  | .error (.panic payload) => .fail (panicReport payload)

theorem last_offer_closes (outcome : Outcome WalkerError Nat) : (lastOffer outcome).close? ≠ none := by
  cases outcome with
  | ok amount => exact Option.some_ne_none _
  | error failure => cases failure <;> exact Option.some_ne_none _

theorem producer_speaks {worlds : List ω} {said : List (Offer × Bool)}
    (spoken : Speaks (producer walker type tag bound) worlds said (.stop ())) :
    ∃ outcome front reply, said = front ++ [(lastOffer outcome, reply)] ∧
      Speaks (walker.enumerate type tag bound).run worlds front (.stop outcome) := by
  obtain ⟨outcome, seen, others, front, back, rfl, rfl, walked, closed⟩ := Dialogue.speaks_bind spoken
  have closing : Speaks (.call (lastOffer outcome) fun _ => .stop ()) others back (.stop ()) := closed
  cases closing with
  | call _ _ reply worlds said _ ended =>
      obtain ⟨rfl, rfl, _⟩ := Dialogue.speaks_stop ended
      rw [List.append_nil]
      exact ⟨outcome, front, reply, rfl, walked⟩

def handOver (items : List (Option HeapObject)) : Option String → Delivery
  | some fault => ⟨items, Outcome.fail (.walker (.fault fault))⟩
  | none => ⟨items, .ok items.length⟩

/-- What a consumer is given that wants so many instances, when all this was offered in the end. -/
def deliveryOf (limit : Nat) (offered : List Offer) : Delivery where
  items := (Offer.pushed offered).take limit
  outcome :=
    if limit ≤ (Offer.pushed offered).length then .ok limit
    else
      match Offer.firstClose offered with
      | some (some message) => Outcome.fail (.walker (.fault message))
      | _ => .ok (Offer.pushed offered).length

/-- What comes of an enumeration, told by all that the walker has offered until it was done. -/
def Hands (walker : Walker ω) (type : HeapClass) (tag : Tag) (bound : UInt32) (worlds : List ω) (delivery : Delivery) :
    Prop :=
  ∃ said outcome, Speaks (walker.enumerate type tag bound).run worlds said (.stop outcome) ∧
    Offer.Truthful bound.toNat said ∧
    delivery = deliveryOf bound.toNat (said.map Prod.fst ++ [lastOffer outcome])

theorem delivery_of_told (limit : Nat) (offered : List Offer) (payload : Panic) :
    (deliveryOf limit offered).outcome ≠ .error (.panic payload) := by
  intro panics
  unfold deliveryOf at panics
  by_cases enough : limit ≤ (Offer.pushed offered).length
  · simp only [if_pos enough] at panics
    cases panics
  · simp only [if_neg enough] at panics
    split at panics <;> cases panics

theorem hand_over_eq {items : List (Option HeapObject)} {limit : Nat} {offered : List Offer} {fault : Option String}
    (taken : items = (Offer.pushed offered).take limit)
    (told : fault = if limit ≤ (Offer.pushed offered).length then none else (Offer.firstClose offered).join) :
    handOver items fault = deliveryOf limit offered := by
  unfold deliveryOf
  by_cases enough : limit ≤ (Offer.pushed offered).length
  · rw [if_pos enough] at told ⊢
    rw [told, handOver, taken, List.length_take_of_le enough]
  · rw [if_neg enough] at told ⊢
    have whole : items = Offer.pushed offered :=
      taken.trans (List.take_of_length_le (Nat.le_of_not_le enough))
    rw [told, ← taken, whole]
    cases Offer.firstClose offered with
    | none => rfl
    | some fault => cases fault <;> rfl

theorem truthful_front {limit : Nat} {said more : List (Offer × Bool)}
    (truthful : Offer.Truthful limit (said ++ more)) :
    Offer.Truthful limit said := by
  constructor
  · exact fun offer reply member => truthful.closes offer reply (List.mem_append_left more member)
  · intro place object reply present closed
    obtain ⟨here, before⟩ := Offer.said_front more present
    exact truthful.late place object reply here (before ▸ closed)
  · intro place object reply present wanted opened
    obtain ⟨here, before⟩ := Offer.said_front more present
    exact truthful.wanted place object reply here wanted (before ▸ opened)

theorem turns_hand (walker : Walker ω) (type : HeapClass) (tag : Tag) (bound : UInt32) (capacity : Nat) (world : ω)
    (turns : List (Turn ω)) (leaving : List (ω × ω)) :
    let feed := Feed.start tag capacity (producer walker type tag bound)
    let drained := (Draining.start feed world).run turns
    drained.Satisfied bound.toNat → Course drained.feed.leave leaving () →
      Hands walker type tag bound ((Draining.start feed world).seen turns ++ leaving.map Prod.fst)
        (handOver drained.given drained.feed.stream.fault) := by
  intro feed drained satisfied left
  have ready := Draining.ready_start tag capacity (producer walker type tag bound)
  obtain ⟨past, attends⟩ := Draining.attends_run turns (Draining.attends_start _ tag capacity world) ready
  have still : drained.feed.Ready := Draining.ready_run turns ready
  obtain ⟨more, after, unheard⟩ := Draining.leave_speaks drained.feed left
  obtain ⟨outcome, said, reply, whole, walked⟩ := producer_speaks (Dialogue.speaks_trans attends.spoken after)
  have closes : Offer.firstClose ((Exchange.offers past ++ more).map Prod.fst) ≠ none := by
    rw [whole, List.map_append, Offer.first_close_append]
    intro opened
    have last := (Option.or_eq_none_iff.mp opened).2
    exact last_offer_closes outcome (by simpa [Offer.firstClose] using last)
  obtain ⟨truthful, taken, fault⟩ := Draining.satisfied_told attends still satisfied after unheard closes
  rw [whole] at truthful taken fault
  refine ⟨said, outcome, walked, truthful_front truthful, ?_⟩
  rw [List.map_append] at taken fault
  exact hand_over_eq taken fault

theorem emptied_course {feed : Feed ω} {limit : Nat} {steps : List (Session ω × Session ω)} {delivery : Delivery}
    (course : Course (emptied feed limit) steps delivery) :
    ∃ session front back items after, steps = (session, session) :: (front ++ back) ∧
      Course (feed.deliver limit (session.census.pacing feed.stream.tag))
        (front.map fun step => (step.1.world, step.2.world)) (items, after) ∧
      Course after.leave (back.map fun step => (step.1.world, step.2.world)) () ∧
      delivery = handOver items after.stream.fault := by
  cases course with
  | act _ _ session steps _ onwards =>
      obtain ⟨front, taken, rest, rfl, delivers, later⟩ := Activity.course_bind onwards
      obtain ⟨back, left, none, rfl, leaves, done⟩ := Activity.course_bind later
      obtain ⟨items, after⟩ := taken
      have ended : none = [] ∧ delivery = handOver items after.stream.fault := by
        cases fault : after.stream.fault <;> simp only [fault] at done <;> exact course_done done
      obtain ⟨rfl, rfl⟩ := ended
      rw [List.append_nil]
      exact ⟨session, front, back, items, after, rfl, course_on_world delivers, course_on_world leaves, rfl⟩

theorem emptied_hands {capacity : Nat} {steps : List (Session ω × Session ω)} {delivery : Delivery}
    (course : Course (emptied (Feed.start tag capacity (producer walker type tag bound)) bound.toNat) steps delivery) :
    ∃ step rest, steps = step :: rest ∧ Hands walker type tag bound (rest.map (·.1.world)) delivery := by
  obtain ⟨session, front, back, items, after, rfl, delivers, leaves, rfl⟩ := emptied_course course
  obtain ⟨found, ⟨turns, world, ran, sees⟩, rfl, all⟩ :=
    Draining.turns_deliver bound.toNat _ session.world [] (Draining.ready_start tag capacity _) delivers
  have hands := turns_hand walker type tag bound capacity session.world turns
    (back.map fun step => (step.1.world, step.2.world))
  simp only [Draining.start, ran, sees] at hands
  have worlds : (front ++ back).map (·.1.world) =
      (front.map fun step => (step.1.world, step.2.world)).map Prod.fst ++
        (back.map fun step => (step.1.world, step.2.world)).map Prod.fst := by
    rw [List.map_append, List.map_map, List.map_map]
    rfl
  refine ⟨_, front ++ back, rfl, ?_⟩
  rw [worlds]
  exact hands all leaves

theorem provide_course {opened : Outcome QueryError Stream} {steps : List (Session ω × Session ω)}
    {outcome : Outcome QueryError (Feed ω)} (course : Course (provide walker type bound tag opened).run steps outcome) :
    steps = [] ∧ outcome = opened.map (⟨·, some (producer walker type tag bound)⟩) := by
  cases opened <;> exact course_done course

theorem enumerate_course {max : Int} (normalized : normalizeBound max = .ok bound) (concrete : type.isConcrete = true)
    {steps : List (Session ω × Session ω)} {outcome : Outcome QueryError (Feed ω)}
    (course : Course (enumerate walker type max).run steps outcome) :
    ∃ first second tag, steps = [first, second] ∧ tag = first.1.census.registry.nextTag ∧
      outcome = (second.1.census.openStream tag).map (⟨·, some (producer walker type tag bound)⟩) := by
  unfold enumerate at course
  rw [normalized] at course
  obtain ⟨session, later, rfl, onwards⟩ := course_step course
  rw [concrete] at onwards
  obtain ⟨next, last, rfl, made⟩ := course_step onwards
  obtain ⟨rfl, rfl⟩ := provide_course made
  exact ⟨(session, _), (next, next), _, rfl, rfl, rfl⟩

theorem enumerate_finished {max : Int} (normalized : normalizeBound max = .ok bound) (none : type.isConcrete = false)
    {steps : List (Session ω × Session ω)} {outcome : Outcome QueryError (Feed ω)}
    (course : Course (enumerate walker type max).run steps outcome) : ∃ tag, outcome = .ok (Feed.finished tag) := by
  unfold enumerate at course
  rw [normalized] at course
  obtain ⟨session, later, rfl, onwards⟩ := course_step course
  rw [none] at onwards
  exact ⟨_, (course_done onwards).2⟩

theorem for_each_course {max : Int} {steps : List (Session ω × Session ω)} {delivery : Delivery}
    (course : Course (forEachInstance walker type max) steps delivery) :
    (∃ opening feed back, steps = opening ++ back ∧ Course (enumerate walker type max).run opening (.ok feed) ∧
      Course (emptied feed (limitOf max)) back delivery) ∨
    ∃ failure, Course (enumerate walker type max).run steps (.error failure) ∧ delivery = ⟨[], .error failure⟩ := by
  rw [for_each_enumerated] at course
  obtain ⟨front, told, none, rfl, enumerates, done⟩ := Activity.course_bind course
  obtain ⟨rfl, rfl⟩ := course_done done
  obtain ⟨opening, outcome, back, rfl, opens, empties⟩ := Activity.course_bind enumerates
  rw [List.append_nil]
  cases outcome with
  | ok feed =>
      obtain ⟨emptying, delivered, none, rfl, emptied, ended⟩ := Activity.course_bind empties
      obtain ⟨rfl, rfl⟩ := course_done ended
      rw [List.append_nil]
      exact .inl ⟨opening, feed, emptying, rfl, opens, emptied⟩
  | error failure =>
      obtain ⟨rfl, rfl⟩ := course_done empties
      rw [List.append_nil]
      exact .inr ⟨failure, opens, rfl⟩

/-- What becomes of an enumeration: its stream is opened in the second step, under the tag that the first has
taken, and emptied, or it is refused and nothing is handed over. -/
inductive Handed (walker : Walker ω) (type : HeapClass) (bound : UInt32) :
    List (Session ω × Session ω) → Delivery → Prop
  | opened {first second third : Session ω × Session ω} {rest : List (Session ω × Session ω)} {delivery : Delivery} :
      second.1.census.Opens first.1.census.registry.nextTag →
      Hands walker type first.1.census.registry.nextTag bound (rest.map (·.1.world)) delivery →
      Handed walker type bound (first :: second :: third :: rest) delivery
  | refused {first second : Session ω × Session ω} {failure : Failure QueryError} :
      ¬ second.1.census.Opens first.1.census.registry.nextTag →
      Census.Refusal first.1.census.registry.nextTag failure → Handed walker type bound [first, second] ⟨[], .error failure⟩

theorem for_each_handed {max : Int} (normalized : normalizeBound max = .ok bound) (concrete : type.isConcrete = true)
    {steps : List (Session ω × Session ω)} {delivery : Delivery}
    (course : Course (forEachInstance walker type max) steps delivery) : Handed walker type bound steps delivery := by
  have limit : limitOf max = bound.toNat := by rw [limitOf, normalized]
  rcases for_each_course course with ⟨opening, feed, back, rfl, opens, empties⟩ | ⟨failure, failed, rfl⟩
  · obtain ⟨first, second, _, rfl, rfl, opened⟩ := enumerate_course normalized concrete opens
    by_cases ready : second.1.census.Opens first.1.census.registry.nextTag
    · rw [Census.open_stream_opens ready] at opened
      obtain rfl := Except.ok.inj opened
      rw [limit] at empties
      obtain ⟨third, rest, rfl, hands⟩ := emptied_hands empties
      exact .opened ready hands
    · obtain ⟨failure, refused, _⟩ := Census.open_stream_refused ready
      rw [refused] at opened
      cases opened
  · obtain ⟨first, second, _, rfl, rfl, opened⟩ := enumerate_course normalized concrete failed
    by_cases ready : second.1.census.Opens first.1.census.registry.nextTag
    · rw [Census.open_stream_opens ready] at opened
      cases opened
    · obtain ⟨cause, refused, refusal⟩ := Census.open_stream_refused ready
      rw [refused] at opened
      obtain rfl := Except.error.inj opened
      exact .refused ready refusal

/-- The query, and a stream of its kind that is read in any other way: its producer and the consumer take
turns as they like, others change the state in between, and the producer goes on after the consumer. -/
theorem for_each_delivers (walker : Walker ω) (type : HeapClass) (max : Int) (concrete : type.isConcrete = true)
    (nonneg : 0 ≤ max) :
    ∃ bound, normalizeBound max = .ok bound ∧
      (∀ steps delivery, Course (forEachInstance walker type max) steps delivery →
        Handed walker type bound steps delivery) ∧
      ∀ tag capacity world turns leaving,
        let feed := Feed.start tag capacity (producer walker type tag bound)
        let drained := (Draining.start feed world).run turns
        drained.Satisfied bound.toNat → Course drained.feed.leave leaving () →
          Hands walker type tag bound ((Draining.start feed world).seen turns ++ leaving.map Prod.fst)
            (handOver drained.given drained.feed.stream.fault) := by
  obtain ⟨bound, normalized⟩ := normalize_bound_ok nonneg
  refine ⟨bound, normalized, fun steps delivery => for_each_handed normalized concrete, ?_⟩
  exact fun tag capacity world turns leaving => turns_hand walker type tag bound capacity world turns leaving

def drawn : HeapClass := .plain ⟨12⟩ "Base" .concrete none

def drawnHeap : SyntheticHeap := ((SyntheticHeap.new.defineClass "Base" none).2.allocateMany drawn 2).2

def buffered (capacity : Nat) (machine : Machine) : Census :=
  { Census.idle (Latency.empty 1 Nat.one_pos) with
    settings := { CensusSettings.standard 1 with streamCapacity := capacity }
    machine := machine
    pacing := fun _ => [3, 0, 2] }

def failingSteps : List OfferStep :=
  [⟨.push (some ⟨⟨7⟩, drawn⟩), 1⟩, ⟨.push none, 1⟩, ⟨.fail "slot 4", 1⟩, ⟨.push (some ⟨⟨8⟩, drawn⟩), 2⟩, ⟨.finish, 1⟩,
   ⟨.stop (.panic .value), 1⟩]

def rehearsing : Session (Rehearsal SyntheticHeap) :=
  ⟨buffered 1 Machine.ample, ⟨drawnHeap, { enumerate := some failingSteps }⟩⟩

theorem failing_steps_delivered :
    let walker := Rehearsal.walker SyntheticHeap.walker
    let delivery := (Activity.run (forEachInstance walker drawn 3) rehearsing).1
    drawn.isConcrete = true ∧ (0 : Int) ≤ 3 ∧
      delivery = ⟨[some ⟨⟨7⟩, drawn⟩, none], Outcome.fail (.walker (.fault "slot 4"))⟩ ∧
      ∃ bound tag worlds, normalizeBound 3 = .ok bound ∧ Hands walker drawn tag bound worlds delivery := by
  intro walker delivery
  have nonneg : (0 : Int) ≤ 3 := by decide
  have told : delivery = ⟨[some ⟨⟨7⟩, drawn⟩, none], Outcome.fail (.walker (.fault "slot 4"))⟩ := by rfl
  obtain ⟨bound, normalized, handed, _⟩ := for_each_delivers walker drawn 3 rfl nonneg
  have course : Handed walker drawn bound _ delivery := handed _ _ (Activity.course_alone _ rehearsing)
  rw [told] at course
  refine ⟨rfl, nonneg, told, bound, ?_⟩
  rw [told]
  cases course with
  | opened _ hands => exact ⟨_, _, normalized, hands⟩

theorem vast_for_each_panics :
    let delivery := (Activity.run (forEachInstance SyntheticHeap.walker drawn 0)
      ⟨buffered (2 ^ 58) (.cramped (2 ^ 58)), drawnHeap⟩).1
    delivery = ⟨[], .error (.panic .noRoom)⟩ ∧ drawnHeap.exact drawn unbounded = drawnHeap.objects ∧
      drawnHeap.objects.length = 2 ∧
      ∀ tag bound worlds, ¬ Hands SyntheticHeap.walker drawn tag bound worlds delivery := by
  intro delivery
  have panicked : delivery = ⟨[], .error (.panic .noRoom)⟩ := rfl
  refine ⟨panicked, by cbv, by cbv, ?_⟩
  rintro tag bound worlds ⟨said, outcome, _, _, same⟩
  exact delivery_of_told _ _ .noRoom (same ▸ congrArg Delivery.outcome panicked)

end Query

end HeapCensus
