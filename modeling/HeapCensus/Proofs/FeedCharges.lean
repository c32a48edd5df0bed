import HeapCensus.Proofs.Charges

set_option autoImplicit false

namespace HeapCensus.Query

variable {ω M α β : Type} [AddCommMonoid M]

def Supplies (custody : Custody (Session ω) M) (done : M) : Producer ω → M → Prop
  | .stop _, own => own = done
  | .call _ resume, own => own = done ∧ ∀ taken, Supplies custody done (resume taken) own
  | .act change resume, own =>
      ∀ session, custody.kept session → custody.kept (session.setWorld (change session.world)) ∧
        ∃ next, custody.moves session own (session.setWorld (change session.world)) next ∧
          Supplies custody done (resume session.world) next

def Feeds (custody : Custody (Session ω) M) (done : M) (feed : Feed ω) (own : M) : Prop :=
  match feed.producer with
  | none => own = done
  | some producer => Supplies custody done producer own

variable {custody : Custody (Session ω) M} {done : M}

theorem on_world_bind (first : Activity ω β) (next : β → Activity ω α) :
    onWorld (Dialogue.bind first next) = Dialogue.bind (onWorld first) fun result => onWorld (next result) := by
  induction first with
  | stop result => rfl
  | act change resume ih => exact congrArg (Dialogue.act _) (funext fun session => ih session.world)
  | call command => exact nomatch command

theorem feeds_move {feed : Feed ω} {own : M} (feeds : Feeds custody done feed own) :
    Activity.Carries custody (fun final feed => Feeds custody done feed final) (onWorld feed.move) own := by
  obtain ⟨stream, producer⟩ := feed
  cases producer with
  | none => exact feeds
  | some producer =>
      cases producer with
      | stop result => exact feeds
      | act change resume => exact feeds
      | call offer resume =>
          obtain ⟨asked, onwards⟩ := feeds
          cases accepted : stream.accept offer with
          | none =>
              simp only [Feed.move, accepted]
              exact ⟨asked, onwards⟩
          | some answer =>
              simp only [Feed.move, accepted]
              exact onwards answer.1

theorem feeds_moves {feed : Feed ω} {own : M} (amount : Nat) (feeds : Feeds custody done feed own) :
    Activity.Carries custody (fun final feed => Feeds custody done feed final) (onWorld (feed.moves amount)) own := by
  induction amount generalizing feed own with
  | zero => exact feeds
  | succ amount ih =>
      have moved : feed.moves (amount + 1) = Dialogue.bind feed.move fun feed => feed.moves amount := rfl
      rw [moved, on_world_bind]
      exact Activity.carries_bind _ (fun own feed feeds => ih feeds) (feeds_move feeds)

theorem feeds_fill_from {producer : Producer ω} {stream : Stream} {own : M}
    (supplies : Supplies custody done producer own) :
    Activity.Carries custody (fun final feed => Feeds custody done feed final)
      (onWorld (Feed.fillFrom stream producer)) own := by
  induction producer generalizing stream own with
  | stop result => exact supplies
  | act change resume ih =>
      intro session kept
      obtain ⟨still, next, moved, onwards⟩ := supplies session kept
      exact ⟨still, next, moved, ih session.world onwards⟩
  | call offer resume ih =>
      have waiting : Activity.Carries custody (fun final feed => Feeds custody done feed final)
          (onWorld (.stop ⟨stream, some (.call offer resume)⟩)) own := supplies
      obtain ⟨asked, onwards⟩ := supplies
      by_cases empty : stream.queue.isEmpty = true
      · cases accepted : stream.accept offer with
        | none => simpa only [Feed.fillFrom, empty, if_true, accepted] using waiting
        | some answer =>
            simp only [Feed.fillFrom, empty, if_true, accepted]
            exact ih answer.1 (onwards answer.1)
      · simpa only [Feed.fillFrom, if_neg empty] using waiting

theorem feeds_fill {feed : Feed ω} {own : M} (feeds : Feeds custody done feed own) :
    Activity.Carries custody (fun final feed => Feeds custody done feed final) (onWorld feed.fill) own := by
  obtain ⟨stream, producer⟩ := feed
  cases producer with
  | none => exact feeds
  | some producer =>
      by_cases empty : stream.queue.isEmpty = true
      · simp only [Feed.fill, empty, if_true]
        exact feeds_fill_from feeds
      · simp only [Feed.fill, if_neg empty]
        exact feeds

def pollOn (limit : Nat) (turns : List Nat) (filled : Feed ω) : Activity ω (List (Option HeapObject) × Feed ω) :=
  match filled.stream.poll with
  | (.item object, stream) => do
      let (others, after) ← Feed.deliver limit turns { filled with stream := stream }
      pure (object :: others, after)
  | (_, stream) => pure ([], { filled with stream := stream })

theorem deliver_succ (limit : Nat) (turns : List Nat) (feed : Feed ω) :
    feed.deliver (limit + 1) turns =
      Dialogue.bind (feed.moves (turns.headD 0)) fun moved => Dialogue.bind moved.fill (pollOn limit turns.tail) :=
  rfl

theorem feeds_deliver {feed : Feed ω} {own : M} (limit : Nat) (turns : List Nat)
    (feeds : Feeds custody done feed own) :
    Activity.Carries custody (fun final taken => Feeds custody done taken.2 final)
      (onWorld (feed.deliver limit turns)) own := by
  induction limit generalizing turns feed own with
  | zero => exact feeds
  | succ limit ih =>
      have polls : ∀ own filled, Feeds custody done filled own →
          Activity.Carries custody (fun final taken => Feeds custody done taken.2 final)
            (onWorld (pollOn limit turns.tail filled)) own := by
        intro own filled feeds
        cases polled : filled.stream.poll with
        | mk answer stream =>
            cases answer with
            | nothing | ended =>
                simp only [pollOn, polled]
                exact feeds
            | item object =>
                simp only [pollOn, polled]
                have others : Feeds custody done { filled with stream := stream } own := feeds
                refine (on_world_bind _ _).symm ▸ Activity.carries_bind _ ?_ (ih turns.tail others)
                exact fun own taken feeds => feeds
      rw [deliver_succ, on_world_bind]
      refine Activity.carries_bind _ (fun own moved feeds => ?_) (feeds_moves _ feeds)
      rw [on_world_bind]
      exact Activity.carries_bind _ polls (feeds_fill feeds)

theorem leaves_run_out {producer : Producer ω} {stream : Stream} {own : M}
    (supplies : Supplies custody done producer own) :
    Activity.Carries custody (fun final _ => final = done) (onWorld (Feed.runOut stream producer)) own := by
  induction producer generalizing stream own with
  | stop result => exact supplies
  | act change resume ih =>
      intro session kept
      obtain ⟨still, next, moved, onwards⟩ := supplies session kept
      exact ⟨still, next, moved, ih session.world onwards⟩
  | call offer resume ih =>
      obtain ⟨asked, onwards⟩ := supplies
      cases accepted : stream.accept offer with
      | none =>
          simp only [Feed.runOut, accepted]
          exact asked
      | some answer =>
          simp only [Feed.runOut, accepted]
          exact ih answer.1 (onwards answer.1)

theorem leaves {feed : Feed ω} {own : M} (feeds : Feeds custody done feed own) :
    Activity.Carries custody (fun final _ => final = done) (onWorld feed.leave) own := by
  obtain ⟨stream, producer⟩ := feed
  cases producer with
  | none => exact feeds
  | some producer => exact leaves_run_out feeds

inductive Ending where
  | settled
  | answered (tag : Tag)
  | lost
  deriving DecidableEq, Repr

def Ending.ofFeed (feed : Feed ω) : Ending :=
  if feed.producer.isNone then .answered feed.stream.tag else .settled

def Ending.ofFailure : Failure QueryError → Ending
  | .error (.invalidArgument _) => .settled
  | _ => .lost

theorem ending_refused {tag : Tag} {failure : Failure QueryError} (refusal : Census.Refusal tag failure) :
    Ending.ofFailure failure = .lost := by
  cases refusal <;> rfl

def emptied (feed : Feed ω) (limit : Nat) : Activity (Session ω) Delivery := do
  let (items, after) ← takeFrom feed limit
  onWorld after.leave
  match after.stream.fault with
  | some fault => return ⟨items, Outcome.fail (.walker (.fault fault))⟩
  | none => return ⟨items, .ok items.length⟩

def enumerated (walker : Walker ω) (type : HeapClass) (max : Int) (limit : Nat) :
    Activity (Session ω) (Ending × Delivery) := do
  match ← (enumerate walker type max).run with
  | .error failure => return (.ofFailure failure, ⟨[], .error failure⟩)
  | .ok feed => return (.ofFeed feed, ← emptied feed limit)

def limitOf (max : Int) : Nat :=
  match normalizeBound max with
  | .ok bound => bound.toNat
  | .error _ => 0

theorem for_each_enumerated (walker : Walker ω) (type : HeapClass) (max : Int) :
    forEachInstance walker type max =
      Dialogue.bind (enumerated walker type max (limitOf max)) fun told => .stop told.2 := by
  unfold forEachInstance enumerated limitOf
  by_cases negative : max < 0
  · obtain ⟨text, wrong⟩ := bound_wrong negative
    unfold enumerate
    rw [wrong]
    rfl
  · obtain ⟨bound, given⟩ := normalize_bound_ok (Int.not_lt.mp negative)
    rw [given]
    refine Eq.trans ?_ (Activity.bind_assoc _ _ _).symm
    refine congrArg (Dialogue.bind (enumerate walker type max).run) (funext fun outcome => ?_)
    cases outcome with
    | error failure => rfl
    | ok feed =>
        refine Eq.trans ?_ (Activity.bind_assoc _ _ _).symm
        exact (Activity.bind_stop (emptied feed bound.toNat)).symm

/-- How the tag of an enumeration is settled in the end. -/
inductive Closed (took : Tag → M) (spent : M) (refused : Tag → Prop) (max : Int) : M → Ending → Prop
  | rejected : max < 0 → Closed took spent refused max 0 .settled
  | asked : 0 ≤ max → Closed took spent refused max spent .settled
  | answered (tag : Tag) : 0 ≤ max → Closed took spent refused max (took tag) (.answered tag)
  | lost (tag : Tag) : 0 ≤ max → refused tag → Closed took spent refused max (took tag) .lost

variable {walker : Walker ω} {took : Tag → M} {spent : M} (charging : Charging walker custody took spent)

include charging

theorem emptied_settles {feed : Feed ω} {own : M} (limit : Nat) (feeds : Feeds custody done feed own) :
    Activity.Carries custody (fun final _ => final = done) (emptied feed limit) own := by
  intro session kept
  obtain ⟨still, looked⟩ := charging.looks session own kept
  refine ⟨still, own, looked, ?_⟩
  refine Activity.carries_bind _ ?_ (feeds_deliver limit (session.census.pacing feed.stream.tag) feeds)
  intro own taken feeds
  refine Activity.carries_bind (fun final _ => final = done) ?_ (leaves feeds)
  rintro _ left rfl
  cases taken.2.stream.fault <;> rfl

theorem enumerated_closes (refused : Tag → Prop)
    (settled : ∀ session tag, custody.kept session → ¬ session.census.Opens tag → refused tag)
    (supplies : ∀ type tag bound, Supplies custody spent (producer walker type tag bound) (took tag))
    (type : HeapClass) (max : Int) (limit : Nat) :
    Activity.Carries custody (fun final told => Closed took spent refused max final told.1)
      (enumerated walker type max limit) 0 := by
  refine Activity.carries_bind _ ?_ (enumerate_opens charging refused settled type max)
  intro own outcome opened
  cases opened with
  | rejected text negative => exact .rejected negative
  | lost tag failure nonneg _ missing refusal =>
      change Closed took spent refused max (took tag) (Ending.ofFailure failure)
      rw [ending_refused refusal]
      exact .lost tag nonneg missing
  | answered tag nonneg _ =>
      have feeds : Feeds custody (took tag) (Feed.finished tag) (took tag) := rfl
      refine Activity.carries_bind (fun final _ => final = took tag) ?_ (emptied_settles charging limit feeds)
      rintro _ delivery rfl
      exact .answered tag nonneg
  | started tag bound stream nonneg _ =>
      have feeds : Feeds custody spent ⟨stream, some (producer walker type tag bound)⟩ (took tag) :=
        supplies type tag bound
      refine Activity.carries_bind (fun final _ => final = spent) ?_ (emptied_settles charging limit feeds)
      rintro _ delivery rfl
      exact .asked nonneg

end HeapCensus.Query
