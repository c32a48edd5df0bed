import HeapCensus.Dialogue
import Mathlib.Data.List.Forall2

set_option autoImplicit false

namespace HeapCensus.Activity

variable {σ ω α β : Type} {holds : σ → List ω → Prop}

/-- What is owned stands in a list. An activity does not depend on its place there, and changes nothing but
what it owns itself. -/
def Keeps (holds : σ → List ω → Prop) (post : ω → α → Prop) : Activity σ α → ω → Prop
  | .stop result, own => post own result
  | .act change resume, own =>
      ∀ state owns place, owns[place]? = some own → holds state owns →
        ∃ next, holds (change state) (owns.set place next) ∧ Keeps holds post (resume state) next
  | .call command _, _ => nomatch command

theorem keeps_bind (middle : ω → β → Prop) {post : ω → α → Prop} {next : β → Activity σ α}
    (after : ∀ own result, middle own result → Keeps holds post (next result) own)
    (activity : Activity σ β) (own : ω) (keeps : Keeps holds middle activity own) :
    Keeps holds post (Dialogue.bind activity next) own := by
  induction activity generalizing own with
  | stop result => exact after own result keeps
  | act change resume ih =>
      intro state owns place mine held
      obtain ⟨later, changed, rest⟩ := keeps state owns place mine held
      exact ⟨later, changed, ih state later rest⟩
  | call command => exact nomatch command

theorem keeps_weaken {post wider : ω → α → Prop} (weaken : ∀ own result, post own result → wider own result)
    (activity : Activity σ α) (own : ω) (keeps : Keeps holds post activity own) :
    Keeps holds wider activity own := by
  induction activity generalizing own with
  | stop result => exact weaken own result keeps
  | act change resume ih =>
      intro state owns place mine held
      obtain ⟨later, changed, rest⟩ := keeps state owns place mine held
      exact ⟨later, changed, ih state later rest⟩
  | call command => exact nomatch command

theorem keeps_step {post : ω → α → Prop} {f : σ → α × σ} {own : ω}
    (step : ∀ state owns place, owns[place]? = some own → holds state owns →
      ∃ next, holds (f state).2 (owns.set place next) ∧ post next (f state).1) :
    Keeps holds post (Activity.step f) own := step

theorem bind_stop (activity : Activity σ α) : Dialogue.bind activity .stop = activity := by
  induction activity with
  | stop result => rfl
  | act change resume ih => exact congrArg (Dialogue.act change) (funext ih)
  | call command => exact nomatch command

theorem bind_assoc {γ : Type} (activity : Activity σ α) (next : α → Activity σ β) (last : β → Activity σ γ) :
    Dialogue.bind (Dialogue.bind activity next) last =
      Dialogue.bind activity fun result => Dialogue.bind (next result) last := by
  induction activity with
  | stop result => rfl
  | act change resume ih => exact congrArg (Dialogue.act change) (funext ih)
  | call command => exact nomatch command

theorem run_bind (activity : Activity σ β) (next : β → Activity σ α) (state : σ) :
    run (Dialogue.bind activity next) state = run (next (run activity state).1) (run activity state).2 := by
  induction activity generalizing state with
  | stop result => rfl
  | act change resume ih => exact ih state (change state)
  | call command => exact nomatch command

theorem run_keeps {post : ω → α → Prop} (activity : Activity σ α) (own : ω)
    (keeps : Keeps holds post activity own) (state : σ) (owns : List ω) (place : Nat)
    (mine : owns[place]? = some own) (held : holds state owns) :
    ∃ next, holds (run activity state).2 (owns.set place next) ∧ post next (run activity state).1 := by
  induction activity generalizing own state owns with
  | stop result =>
      refine ⟨own, ?_, keeps⟩
      obtain ⟨within, same⟩ := List.getElem?_eq_some_iff.mp mine
      rw [← same, List.set_getElem_self]
      exact held
  | act change resume ih =>
      obtain ⟨later, changed, rest⟩ := keeps state owns place mine held
      have within := (List.getElem?_eq_some_iff.mp mine).1
      obtain ⟨next, final, done⟩ :=
        ih state later rest (change state) (owns.set place later) (List.getElem?_set_self within) changed
      rw [List.set_set] at final
      exact ⟨next, final, done⟩
  | call command => exact nomatch command

def Shares (holds : σ → List ω → Prop) (post : Nat → ω → α → Prop) (first : Nat)
    (activities : List (Activity σ α)) (owns : List ω) : Prop :=
  ∀ place activity, activities[place]? = some activity →
    ∃ own, owns[first + place]? = some own ∧ Keeps holds (post (first + place)) activity own

def Ends (post : Nat → ω → α → Prop) (first : Nat) (results : List α) (owns : List ω) : Prop :=
  ∀ place result, results[place]? = some result →
    ∃ own, owns[first + place]? = some own ∧ post (first + place) own result

theorem in_turn_keeps (post : Nat → ω → α → Prop) (activities : List (Activity σ α)) (first : Nat)
    (state : σ) (owns : List ω) (shares : Shares holds post first activities owns)
    (held : holds state owns) :
    ∃ final, holds (run (inTurn activities) state).2 final ∧ final.length = owns.length ∧
      (∀ place < first, final[place]? = owns[place]?) ∧
      (run (inTurn activities) state).1.length = activities.length ∧
      Ends post first (run (inTurn activities) state).1 final := by
  induction activities generalizing first state owns with
  | nil =>
      refine ⟨owns, held, rfl, fun _ _ => rfl, rfl, ?_⟩
      intro place result present
      simp [inTurn, run] at present
  | cons activity activities ih =>
      obtain ⟨own, mine, keeps⟩ := shares 0 activity rfl
      obtain ⟨next, changed, done⟩ := run_keeps activity own keeps state owns first mine held
      have within := (List.getElem?_eq_some_iff.mp mine).1
      -- The first activity has changed its own share only, and none of the later ones owns that.
      have others : Shares holds post (first + 1) activities (owns.set first next) := by
        intro place other present
        obtain ⟨own, theirs, keeps⟩ := shares (place + 1) other present
        rw [Nat.add_assoc, Nat.add_comm 1 place]
        refine ⟨own, ?_, keeps⟩
        rw [List.getElem?_set_ne (by omega)]
        exact theirs
      obtain ⟨final, ended, size, before, amount, results⟩ :=
        ih (first + 1) (run activity state).2 (owns.set first next) others changed
      rw [inTurn, run_bind, run_bind]
      refine ⟨final, ended, size.trans List.length_set, ?_, congrArg (· + 1) amount, ?_⟩
      · intro place earlier
        rw [before place (by omega), List.getElem?_set_ne (by omega)]
      · intro place result present
        cases place with
        | zero =>
            have same : (run activity state).1 = result := Option.some.inj present
            refine ⟨next, ?_, same ▸ done⟩
            rw [Nat.add_zero, before first (Nat.lt_succ_self first)]
            exact List.getElem?_set_self within
        | succ place =>
            rw [← Nat.add_assoc, Nat.add_right_comm]
            exact results place result present

theorem interleave_keeps (post : Nat → ω → α → Prop) (schedule : List Nat)
    (activities : List (Activity σ α)) (state : σ) (owns : List ω)
    (shares : Shares holds post 0 activities owns) (held : holds state owns) :
    ∃ final, holds (run (interleave schedule activities) state).2 final ∧
      final.length = owns.length ∧
      (run (interleave schedule activities) state).1.length = activities.length ∧
      Ends post 0 (run (interleave schedule activities) state).1 final := by
  induction schedule generalizing activities state owns with
  | nil =>
      obtain ⟨final, ended, size, _, amount, results⟩ :=
        in_turn_keeps post activities 0 state owns shares held
      exact ⟨final, ended, size, amount, results⟩
  | cons pick schedule ih =>
      cases picked : activities[pick]? with
      | none =>
          simp only [interleave, picked]
          exact ih activities state owns shares held
      | some activity =>
          cases activity with
          | call command => exact nomatch command
          | stop result =>
              simp only [interleave, picked]
              exact ih activities state owns shares held
          | act change resume =>
              obtain ⟨own, mine, keeps⟩ := shares pick _ picked
              rw [Nat.zero_add] at mine keeps
              obtain ⟨next, changed, rest⟩ := keeps state owns pick mine held
              have within := (List.getElem?_eq_some_iff.mp mine).1
              -- The one that was picked is a step further on, with the share that the step has left it.
              have moved : Shares holds post 0 (activities.set pick (resume state)) (owns.set pick next) := by
                intro place other present
                rw [Nat.zero_add]
                by_cases same : pick = place
                · subst same
                  rw [List.getElem?_set_self (List.getElem?_eq_some_iff.mp picked).1] at present
                  obtain rfl := Option.some.inj present
                  exact ⟨next, List.getElem?_set_self within, rest⟩
                · rw [List.getElem?_set_ne same] at present ⊢
                  simpa using shares place other present
              obtain ⟨final, ended, size, amount, results⟩ :=
                ih (activities.set pick (resume state)) (change state) (owns.set pick next) moved changed
              simp only [interleave, picked, run]
              exact ⟨final, ended, size.trans List.length_set, amount.trans List.length_set, results⟩

theorem interleave_each {ι : Type} (items : List ι) (activity : ι → Activity σ α) (first : ι → ω)
    (post : ι → ω → α → Prop) (keeps : ∀ item, Keeps holds (post item) (activity item) (first item))
    (schedule : List Nat) (state : σ) (held : holds state (items.map first)) :
    let finished := run (interleave schedule (items.map activity)) state
    ∃ ends : List (ω × α), holds finished.2 (ends.map Prod.fst) ∧ finished.1 = ends.map Prod.snd ∧
      List.Forall₂ (fun item ended => post item ended.1 ended.2) items ends := by
  intro finished
  let placed : Nat → ω → α → Prop := fun place own result =>
    ∀ item, items[place]? = some item → post item own result
  have shares : Shares holds placed 0 (items.map activity) (items.map first) := by
    intro place part present
    rw [List.getElem?_map] at present
    obtain ⟨item, named, rfl⟩ := Option.map_eq_some_iff.mp present
    rw [Nat.zero_add, List.getElem?_map, named]
    refine ⟨first item, rfl, keeps_weaken ?_ _ _ (keeps item)⟩
    intro own result done other same
    obtain rfl := Option.some.inj (named.symm.trans same)
    exact done
  obtain ⟨final, ended, size, amount, ends⟩ :=
    interleave_keeps placed schedule (items.map activity) state _ shares held
  rw [List.length_map] at size amount
  have owns : (final.zip finished.1).map Prod.fst = final :=
    List.map_fst_zip (Nat.le_of_eq (size.trans amount.symm))
  have results : (final.zip finished.1).map Prod.snd = finished.1 :=
    List.map_snd_zip (Nat.le_of_eq (amount.trans size.symm))
  refine ⟨final.zip finished.1, owns.symm ▸ ended, results.symm, ?_⟩
  refine List.forall₂_iff_get.mpr ⟨?_, fun place within present => ?_⟩
  · rw [List.length_zip, size, amount, Nat.min_self]
  · have kept : place < finished.1.length := amount.symm ▸ within
    obtain ⟨own, mine, done⟩ := ends place _ (List.getElem?_eq_getElem kept)
    rw [Nat.zero_add] at mine done
    obtain ⟨_, here⟩ := List.getElem?_eq_some_iff.mp mine
    have finish := done _ (List.getElem?_eq_getElem within)
    simpa [here] using finish

def Within (kept : σ → Prop) (post : α → Prop) : Activity σ α → Prop
  | .stop result => post result
  | .act change resume =>
      ∀ state, kept state → kept (change state) ∧ Within kept post (resume state)
  | .call command _ => nomatch command

variable {kept : σ → Prop}

theorem within_bind (middle : β → Prop) {post : α → Prop} {activity : Activity σ β}
    {next : β → Activity σ α} (first : Within kept middle activity)
    (later : ∀ result, middle result → Within kept post (next result)) :
    Within kept post (Dialogue.bind activity next) := by
  induction activity with
  | stop result => exact later result first
  | act change resume ih =>
      intro state held
      obtain ⟨stepped, rest⟩ := first state held
      exact ⟨stepped, ih state rest⟩
  | call command => exact nomatch command

theorem within_weaken {post wider : α → Prop} {activity : Activity σ α} (stays : Within kept post activity)
    (weaken : ∀ result, post result → wider result) : Within kept wider activity := by
  induction activity with
  | stop result => exact weaken result stays
  | act change resume ih =>
      intro state held
      obtain ⟨stepped, rest⟩ := stays state held
      exact ⟨stepped, ih state rest⟩
  | call command => exact nomatch command

theorem run_within {post : α → Prop} {activity : Activity σ α} (stays : Within kept post activity)
    {state : σ} (held : kept state) :
    kept (run activity state).2 ∧ post (run activity state).1 := by
  induction activity generalizing state with
  | stop result => exact ⟨held, stays⟩
  | act change resume ih =>
      obtain ⟨stepped, rest⟩ := stays state held
      exact ih state rest stepped
  | call command => exact nomatch command

theorem within_in_turn {post : α → Prop} {activities : List (Activity σ α)}
    (each : ∀ activity ∈ activities, Within kept post activity) :
    Within kept (fun results => ∀ result ∈ results, post result) (inTurn activities) := by
  induction activities with
  | nil => exact fun _ member => nomatch member
  | cons activity activities ih =>
      obtain ⟨first, others⟩ := List.forall_mem_cons.mp each
      refine within_bind post first fun result done => ?_
      refine within_bind _ (ih others) fun results rest => ?_
      exact List.forall_mem_cons.mpr ⟨done, rest⟩

theorem within_interleave {post : α → Prop} (schedule : List Nat) {activities : List (Activity σ α)}
    (each : ∀ activity ∈ activities, Within kept post activity) :
    Within kept (fun results => ∀ result ∈ results, post result) (interleave schedule activities) := by
  induction schedule generalizing activities with
  | nil => exact within_in_turn each
  | cons pick schedule ih =>
      cases picked : activities[pick]? with
      | none =>
          simp only [interleave, picked]
          exact ih each
      | some activity =>
          cases activity with
          | call command => exact nomatch command
          | stop result =>
              simp only [interleave, picked]
              exact ih each
          | act change resume =>
              simp only [interleave, picked]
              intro state held
              obtain ⟨stepped, rest⟩ := each _ (List.mem_of_getElem? picked) state held
              refine ⟨stepped, ih fun activity member => ?_⟩
              cases List.mem_or_eq_of_mem_set member with
              | inl other => exact each activity other
              | inr same => exact same ▸ rest

def Gives (post : α → Prop) : Activity σ α → Prop
  | .stop result => post result
  | .act _ resume => ∀ state, Gives post (resume state)
  | .call command _ => nomatch command

theorem gives_iff_within (post : α → Prop) (activity : Activity σ α) :
    Gives post activity ↔ Within (fun _ => True) post activity := by
  induction activity with
  | stop result => exact Iff.rfl
  | act change resume ih => simp only [Gives, Within, ih, true_and, forall_const]
  | call command => exact nomatch command

theorem gives_any (activity : Activity σ α) : Gives (fun _ => True) activity := by
  induction activity with
  | stop result => trivial
  | act change resume ih => exact ih
  | call command => exact nomatch command

theorem gives_bind (middle : β → Prop) {post : α → Prop} {activity : Activity σ β}
    {next : β → Activity σ α} (first : Gives middle activity)
    (later : ∀ result, middle result → Gives post (next result)) :
    Gives post (Dialogue.bind activity next) := by
  simp only [gives_iff_within] at first later ⊢
  exact within_bind middle first later

theorem gives_run {post : α → Prop} {activity : Activity σ α} (gives : Gives post activity)
    (state : σ) : post (run activity state).1 :=
  (run_within ((gives_iff_within post activity).mp gives) trivial).2

theorem gives_interleave {post : α → Prop} (schedule : List Nat) {activities : List (Activity σ α)}
    (gives : ∀ activity ∈ activities, Gives post activity) :
    Gives (fun results => ∀ result ∈ results, post result) (interleave schedule activities) := by
  simp only [gives_iff_within] at gives ⊢
  exact within_interleave schedule gives

end HeapCensus.Activity
