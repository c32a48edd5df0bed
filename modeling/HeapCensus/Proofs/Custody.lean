import HeapCensus.Proofs.Activity
import Mathlib.Algebra.BigOperators.Group.List.Basic

set_option autoImplicit false

namespace HeapCensus

structure Custody (σ M : Type) [AddCommMonoid M] where
  -- What no step changes.
  kept : σ → Prop
  moves : σ → M → σ → M → Prop
  beside : ∀ {before after : σ} {own next : M} (other : M),
    moves before own after next → moves before (other + own) after (other + next)

variable {σ M α β : Type} [AddCommMonoid M]

namespace Custody

def Allows (custody : Custody σ M) (before : σ) (own : M) (after : σ) (next : M) : Prop :=
  custody.kept before → custody.kept after ∧ custody.moves before own after next

def accounting (kept : σ → Prop) (holds : σ → M → Prop) : Custody σ M where
  kept := kept
  moves before own after next := ∀ rest, holds before (rest + own) → holds after (rest + next)
  beside := by
    intro before after own next other moved rest held
    rw [← add_assoc] at held ⊢
    exact moved (rest + other) held

def charging (kept : σ → Prop) (price : σ → σ → M) : Custody σ M where
  kept := kept
  moves before own after next := next = own + price before after
  beside := by
    rintro before after own _ other rfl
    exact (add_assoc other own _).symm

end Custody

namespace Activity

variable {custody : Custody σ M}

def Carries (custody : Custody σ M) (post : M → α → Prop) : Activity σ α → M → Prop
  | .stop result, own => post own result
  | .act change resume, own =>
      ∀ state, custody.kept state → custody.kept (change state) ∧
        ∃ next, custody.moves state own (change state) next ∧ Carries custody post (resume state) next
  | .call command _, _ => nomatch command

theorem carries_bind (middle : M → β → Prop) {post : M → α → Prop} {next : β → Activity σ α}
    (after : ∀ own result, middle own result → Carries custody post (next result) own)
    {activity : Activity σ β} {own : M} (carries : Carries custody middle activity own) :
    Carries custody post (Dialogue.bind activity next) own := by
  induction activity generalizing own with
  | stop result => exact after own result carries
  | act change resume ih =>
      intro state kept
      obtain ⟨still, later, moved, onwards⟩ := carries state kept
      exact ⟨still, later, moved, ih state onwards⟩
  | call command => exact nomatch command

theorem carries_weaken {post wider : M → α → Prop} (weaken : ∀ own result, post own result → wider own result)
    {activity : Activity σ α} {own : M} (carries : Carries custody post activity own) :
    Carries custody wider activity own := by
  induction activity generalizing own with
  | stop result => exact weaken own result carries
  | act change resume ih =>
      intro state kept
      obtain ⟨still, later, moved, onwards⟩ := carries state kept
      exact ⟨still, later, moved, ih state onwards⟩
  | call command => exact nomatch command

theorem carries_step {post : M → α → Prop} {f : σ → α × σ} {own : M}
    (step : ∀ state, ∃ next, custody.Allows state own (f state).2 next ∧ post next (f state).1) :
    Carries custody post (Activity.step f) own := by
  intro state kept
  obtain ⟨next, allowed, done⟩ := step state
  obtain ⟨still, moved⟩ := allowed kept
  exact ⟨still, next, moved, done⟩

theorem carries_beside {post : M → α → Prop} {activity : Activity σ α} {own : M} (other : M)
    (carries : Carries custody post activity own) :
    Carries custody (fun final result => ∃ next, final = other + next ∧ post next result) activity
      (other + own) := by
  induction activity generalizing own with
  | stop result => exact ⟨own, rfl, carries⟩
  | act change resume ih =>
      intro state kept
      obtain ⟨still, later, moved, onwards⟩ := carries state kept
      exact ⟨still, other + later, custody.beside other moved, ih state onwards⟩
  | call command => exact nomatch command

theorem carries_run {kept : σ → Prop} {holds : σ → M → Prop} {post : M → α → Prop} {activity : Activity σ α}
    {own : M} (carries : Carries (Custody.accounting kept holds) post activity own) {state : σ} {rest : M}
    (right : kept state) (held : holds state (rest + own)) :
    kept (run activity state).2 ∧
      ∃ next, holds (run activity state).2 (rest + next) ∧ post next (run activity state).1 := by
  induction activity generalizing own state with
  | stop result => exact ⟨right, own, held, carries⟩
  | act change resume ih =>
      obtain ⟨still, later, moved, onwards⟩ := carries state right
      exact ih state onwards still (moved rest held)
  | call command => exact nomatch command

theorem carries_kept {post : M → α → Prop} {activity : Activity σ α} {own : M}
    (carries : Carries custody post activity own) {state : σ} (right : custody.kept state) :
    custody.kept (run activity state).2 := by
  induction activity generalizing own state with
  | stop result => exact right
  | act change resume ih =>
      obtain ⟨still, _, _, onwards⟩ := carries state right
      exact ih state onwards still
  | call command => exact nomatch command

/-- The steps an activity makes from its start to its end, whatever happens between them. -/
inductive Course : Activity σ α → List (σ × σ) → α → Prop
  | stop (result : α) : Course (.stop result) [] result
  | act (change : σ → σ) (resume : σ → Activity σ α) (state : σ) (steps : List (σ × σ)) (result : α) :
      Course (resume state) steps result → Course (.act change resume) ((state, change state) :: steps) result

def paid (price : σ → σ → M) (steps : List (σ × σ)) : M := (steps.map fun step => price step.1 step.2).sum

theorem course_pays {kept : σ → Prop} {price : σ → σ → M} {post : M → α → Prop} {activity : Activity σ α}
    {own : M} (carries : Carries (Custody.charging kept price) post activity own) {steps : List (σ × σ)}
    {result : α} (course : Course activity steps result) (right : ∀ step ∈ steps, kept step.1) :
    post (own + paid price steps) result := by
  induction course generalizing own with
  | stop result =>
      rw [paid, List.map_nil, List.sum_nil, add_zero]
      exact carries
  | act change resume state steps result _ ih =>
      obtain ⟨here, others⟩ := List.forall_mem_cons.mp right
      obtain ⟨_, _, rfl, onwards⟩ := carries state here
      have rest := ih onwards others
      rw [add_assoc] at rest
      exact rest

theorem course_bind {activity : Activity σ β} {next : β → Activity σ α} {steps : List (σ × σ)} {result : α}
    (course : Course (Dialogue.bind activity next) steps result) :
    ∃ front middle back, steps = front ++ back ∧ Course activity front middle ∧
      Course (next middle) back result := by
  induction activity generalizing steps with
  | stop middle => exact ⟨[], middle, steps, rfl, .stop middle, course⟩
  | act change resume ih =>
      cases course with
      | act _ _ state steps _ onwards =>
          obtain ⟨front, middle, back, rfl, first, later⟩ := ih state onwards
          exact ⟨(state, change state) :: front, middle, back, rfl, .act _ _ state front middle first, later⟩
  | call command => exact nomatch command

variable {post : M → α → Prop}

def Carried (custody : Custody σ M) (post : M → α → Prop) : List (Activity σ α) → List M → Prop :=
  List.Forall₂ fun activity own => Carries custody post activity own

def Ended (post : M → α → Prop) (amount : Nat) (final : M) (results : List α) : Prop :=
  ∃ ends : List (M × α), ends.length = amount ∧ final = (ends.map Prod.fst).sum ∧
    results = ends.map Prod.snd ∧ ∀ ended ∈ ends, post ended.1 ended.2

theorem carries_in_turn {activities : List (Activity σ α)} {owns : List M}
    (carried : Carried custody post activities owns) :
    Carries custody (Ended post activities.length) (inTurn activities) owns.sum := by
  induction carried with
  | nil => exact ⟨[], rfl, rfl, rfl, List.forall_mem_nil _⟩
  | @cons activity own activities owns first _ ih =>
      rw [List.sum_cons, add_comm]
      refine carries_bind _ ?_ (carries_beside owns.sum first)
      rintro _ result ⟨own, rfl, done⟩
      rw [add_comm]
      refine carries_bind _ ?_ (carries_beside own ih)
      rintro _ results ⟨final, rfl, ends, amount, rfl, rfl, all⟩
      exact ⟨(own, result) :: ends, congrArg (· + 1) amount, rfl, rfl, List.forall_mem_cons.mpr ⟨done, all⟩⟩

theorem sum_replaced {owns : List M} {place : Nat} {own : M} (present : owns[place]? = some own) :
    ∃ others, owns.sum = others + own ∧ ∀ next, (owns.set place next).sum = others + next := by
  induction owns generalizing place with
  | nil => cases present
  | cons first owns ih =>
      cases place with
      | zero =>
          obtain rfl := Option.some.inj present
          exact ⟨owns.sum, add_comm _ _, fun next => add_comm _ _⟩
      | succ place =>
          obtain ⟨others, before, later⟩ := ih present
          refine ⟨first + others, ?_, fun next => ?_⟩
          · rw [List.sum_cons, before, add_assoc]
          · rw [List.set_cons_succ, List.sum_cons, later, add_assoc]

theorem carried_at {activities : List (Activity σ α)} {owns : List M} {place : Nat}
    {activity : Activity σ α} (carried : Carried custody post activities owns)
    (picked : activities[place]? = some activity) :
    ∃ own, owns[place]? = some own ∧ Carries custody post activity own := by
  induction carried generalizing place with
  | nil => cases picked
  | cons first _ ih =>
      cases place with
      | zero =>
          obtain rfl := Option.some.inj picked
          exact ⟨_, rfl, first⟩
      | succ place => exact ih picked

theorem carried_set {activities : List (Activity σ α)} {owns : List M} (place : Nat)
    {activity : Activity σ α} {own : M} (carried : Carried custody post activities owns)
    (moved : Carries custody post activity own) :
    Carried custody post (activities.set place activity) (owns.set place own) := by
  induction carried generalizing place with
  | nil => exact .nil
  | cons first others ih =>
      cases place with
      | zero => exact .cons moved others
      | succ place => exact .cons first (ih place)

theorem carries_interleave (schedule : List Nat) {activities : List (Activity σ α)} {owns : List M}
    (carried : Carried custody post activities owns) :
    Carries custody (Ended post activities.length) (interleave schedule activities) owns.sum := by
  induction schedule generalizing activities owns with
  | nil => exact carries_in_turn carried
  | cons pick schedule ih =>
      cases picked : activities[pick]? with
      | none =>
          simp only [interleave, picked]
          exact ih carried
      | some activity =>
          cases activity with
          | call command => cases command
          | stop result =>
              simp only [interleave, picked]
              exact ih carried
          | act change resume =>
              obtain ⟨own, mine, carries⟩ := carried_at carried picked
              obtain ⟨others, whole, replaced⟩ := sum_replaced mine
              simp only [interleave, picked]
              intro state kept
              obtain ⟨still, next, moved, onwards⟩ := carries state kept
              have later := ih (carried_set pick carried onwards)
              rw [List.length_set, replaced] at later
              rw [whole]
              exact ⟨still, others + next, custody.beside others moved, later⟩

theorem carries_each (schedule : List Nat) {activities : List (Activity σ α)}
    (each : ∀ activity ∈ activities, Carries custody post activity 0) :
    Carries custody (Ended post activities.length) (interleave schedule activities) 0 := by
  have carried : Carried custody post activities (activities.map fun _ => 0) := by
    rw [Carried, List.forall₂_map_right_iff, List.forall₂_same]
    exact each
  have nothing : (activities.map fun _ => (0 : M)).sum = 0 := List.sum_map_zero
  rw [← nothing]
  exact carries_interleave schedule carried

end Activity

end HeapCensus
