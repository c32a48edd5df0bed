import HeapCensus.Dialogue
import HeapCensus.Proofs.Exchange

set_option autoImplicit false

namespace HeapCensus

namespace Dialogue

variable {ω κ ρ α β : Type}

/-- From one moment of a dialogue to a later one, with the states that it looked at and the calls that it
made, each with its reply. -/
inductive Speaks : Dialogue ω κ ρ α → List ω → List (κ × ρ) → Dialogue ω κ ρ α → Prop
  | here (dialogue : Dialogue ω κ ρ α) : Speaks dialogue [] [] dialogue
  | act (change : ω → ω) (resume : ω → Dialogue ω κ ρ α) (world : ω) (worlds : List ω) (said : List (κ × ρ))
      (later : Dialogue ω κ ρ α) :
      Speaks (resume world) worlds said later → Speaks (.act change resume) (world :: worlds) said later
  | call (command : κ) (resume : ρ → Dialogue ω κ ρ α) (reply : ρ) (worlds : List ω) (said : List (κ × ρ))
      (later : Dialogue ω κ ρ α) :
      Speaks (resume reply) worlds said later →
      Speaks (.call command resume) worlds ((command, reply) :: said) later

theorem speaks_trans {first middle last : Dialogue ω κ ρ α} {worlds others : List ω} {said more : List (κ × ρ)}
    (before : Speaks first worlds said middle) (after : Speaks middle others more last) :
    Speaks first (worlds ++ others) (said ++ more) last := by
  induction before with
  | here => exact after
  | act change resume world worlds said later _ ih => exact .act change resume world _ _ last (ih after)
  | call command resume reply worlds said later _ ih => exact .call command resume reply _ _ last (ih after)

theorem speaks_act {first : Dialogue ω κ ρ α} {change : ω → ω} {resume : ω → Dialogue ω κ ρ α} {worlds : List ω}
    {said : List (κ × ρ)} (spoken : Speaks first worlds said (.act change resume)) (world : ω) :
    Speaks first (worlds ++ [world]) said (resume world) := by
  have further := speaks_trans spoken (.act change resume world [] [] _ (.here _))
  rwa [List.append_nil] at further

theorem speaks_call {first : Dialogue ω κ ρ α} {command : κ} {resume : ρ → Dialogue ω κ ρ α} {worlds : List ω}
    {said : List (κ × ρ)} (spoken : Speaks first worlds said (.call command resume)) (reply : ρ) :
    Speaks first worlds (said ++ [(command, reply)]) (resume reply) := by
  have further := speaks_trans spoken (.call command resume reply [] [] _ (.here _))
  rwa [List.append_nil] at further

theorem speaks_stop {first : Dialogue ω κ ρ α} {result : α} {worlds : List ω} {said : List (κ × ρ)}
    (spoken : Speaks (.stop result) worlds said first) : worlds = [] ∧ said = [] ∧ first = .stop result := by
  cases spoken with
  | here => exact ⟨rfl, rfl, rfl⟩

theorem speaks_bind {first : Dialogue ω κ ρ β} {next : β → Dialogue ω κ ρ α} {worlds : List ω}
    {said : List (κ × ρ)} {result : α} (spoken : Speaks (Dialogue.bind first next) worlds said (.stop result)) :
    ∃ value seen others front back, worlds = seen ++ others ∧ said = front ++ back ∧
      Speaks first seen front (.stop value) ∧ Speaks (next value) others back (.stop result) := by
  induction first generalizing worlds said with
  | stop value => exact ⟨value, [], worlds, [], said, rfl, rfl, .here _, spoken⟩
  | act change resume ih =>
      cases spoken with
      | act _ _ world worlds said _ later =>
          obtain ⟨value, seen, others, front, back, rfl, rfl, part, rest⟩ := ih world later
          exact ⟨value, world :: seen, others, front, back, rfl, rfl, .act change resume world _ _ _ part, rest⟩
  | call command resume ih =>
      cases spoken with
      | call _ _ reply worlds said _ later =>
          obtain ⟨value, seen, others, front, back, rfl, rfl, part, rest⟩ := ih reply later
          exact ⟨value, seen, others, (command, reply) :: front, back, rfl, rfl,
            .call command resume reply _ _ _ part, rest⟩

end Dialogue

namespace Offer

/-- What is pushed before the first close. -/
def pushed : List Offer → List (Option HeapObject)
  | .push object :: offers => object :: pushed offers
  | _ => []

def firstClose (offers : List Offer) : Option (Option String) := (offers.filterMap Offer.close?).head?

theorem first_close_append (offers more : List Offer) :
    firstClose (offers ++ more) = (firstClose offers).or (firstClose more) := by
  rw [firstClose, List.filterMap_append, List.head?_append]
  rfl

theorem pushed_open {offers : List Offer} (opened : firstClose offers = none) (more : List Offer) :
    pushed (offers ++ more) = pushed offers ++ pushed more := by
  induction offers with
  | nil => rfl
  | cons offer offers ih =>
      cases offer with
      | push object => exact congrArg (object :: ·) (ih opened)
      | finish | fail message => cases opened

theorem pushed_closed {offers : List Offer} (closed : firstClose offers ≠ none) (more : List Offer) :
    pushed (offers ++ more) = pushed offers := by
  induction offers with
  | nil => exact absurd rfl closed
  | cons offer offers ih =>
      cases offer with
      | push object => exact congrArg (object :: ·) (ih closed)
      | finish | fail message => rfl

theorem pushed_prefix (offers more : List Offer) : pushed offers <+: pushed (offers ++ more) := by
  by_cases opened : firstClose offers = none
  · rw [pushed_open opened]
    exact List.prefix_append _ _
  · have same := pushed_closed opened more
    exact same.symm ▸ List.prefix_rfl

theorem pushes_open (slots : List (Option HeapObject)) : firstClose (slots.map .push) = none := by
  induction slots with
  | nil => rfl
  | cons slot slots ih => exact ih

theorem pushes_pushed (slots : List (Option HeapObject)) : pushed (slots.map .push) = slots := by
  induction slots with
  | nil => rfl
  | cons slot slots ih => exact congrArg (slot :: ·) ih

theorem length_pushed {offers : List Offer} (opened : firstClose offers = none) :
    (pushed offers).length = offers.length := by
  induction offers with
  | nil => rfl
  | cons offer offers ih =>
      cases offer with
      | push object => exact congrArg (· + 1) (ih opened)
      | finish | fail message => cases opened

def earlier (said : List (Offer × Bool)) (place : Nat) : List Offer := (said.take place).map Prod.fst

def Answered (said : List (Offer × Bool)) : Prop :=
  ∀ place offer reply, said[place]? = some (offer, reply) →
    (reply = true ↔ offer.close? ≠ none ∨ firstClose (earlier said place) = none)

def Unheard (said : List (Offer × Bool)) : Prop :=
  ∀ offer reply, (offer, reply) ∈ said → (reply = true ↔ offer.close? ≠ none)

/-- The answers that a producer gets whose consumer wants so many items. Pushes that come after these may be
taken or not. -/
structure Truthful (limit : Nat) (said : List (Offer × Bool)) : Prop where
  closes : ∀ offer reply, (offer, reply) ∈ said → offer.close? ≠ none → reply = true
  late : ∀ place object reply, said[place]? = some (.push object, reply) →
    firstClose (earlier said place) ≠ none → reply = false
  wanted : ∀ place object reply, said[place]? = some (.push object, reply) → place < limit →
    firstClose (earlier said place) = none → reply = true

theorem earlier_append {said more : List (Offer × Bool)} {place : Nat} (within : place ≤ said.length) :
    earlier (said ++ more) place = earlier said place := by
  rw [earlier, List.take_append_of_le_length within, earlier]

theorem said_front {said : List (Offer × Bool)} (more : List (Offer × Bool)) {place : Nat} {each : Offer × Bool}
    (present : said[place]? = some each) :
    (said ++ more)[place]? = some each ∧ earlier (said ++ more) place = earlier said place := by
  have within := (List.getElem?_eq_some_iff.mp present).1
  exact ⟨(List.getElem?_append_left within).trans present, earlier_append (Nat.le_of_lt within)⟩

theorem answered_snoc {said : List (Offer × Bool)} (answered : Answered said) {offer : Offer} {reply : Bool}
    (last : reply = true ↔ offer.close? ≠ none ∨ firstClose (said.map Prod.fst) = none) :
    Answered (said ++ [(offer, reply)]) := by
  intro place other told present
  rcases Nat.lt_trichotomy place said.length with before | same | beyond
  · rw [List.getElem?_append_left before] at present
    rw [earlier_append (Nat.le_of_lt before)]
    exact answered place other told present
  · subst same
    rw [List.getElem?_concat_length] at present
    obtain ⟨rfl, rfl⟩ := Prod.mk.inj (Option.some.inj present)
    rwa [earlier, List.take_left]
  · have ended : (said ++ [(offer, reply)]).length ≤ place := by
      rw [List.length_append, List.length_singleton]
      exact beyond
    cases (List.getElem?_eq_none ended).symm.trans present

theorem answered_push {object : Option HeapObject} {reply : Bool} {more : List (Offer × Bool)}
    (answered : Answered ((.push object, reply) :: more)) : reply = true ∧ Answered more := by
  refine ⟨(answered 0 (.push object) reply rfl).mpr (.inr rfl), ?_⟩
  intro place offer told present
  exact answered (place + 1) offer told present

theorem answered_front {said more : List (Offer × Bool)} (answered : Answered (said ++ more)) : Answered said := by
  intro place offer reply present
  obtain ⟨here, before⟩ := said_front more present
  exact before ▸ answered place offer reply here

theorem speaks_on {ω α : Type} (world : ω) (producer : Dialogue ω Offer Bool α) {said : List (Offer × Bool)}
    (answered : Answered said) :
    ∃ worlds more result, Dialogue.Speaks producer worlds more (.stop result) ∧
      (∀ other ∈ worlds, other = world) ∧ Answered (said ++ more) := by
  induction producer generalizing said with
  | stop result => exact ⟨[], [], result, .here _, nofun, (List.append_nil said).symm ▸ answered⟩
  | act change resume ih =>
      obtain ⟨worlds, more, result, speaks, same, answered⟩ := ih world answered
      exact ⟨world :: worlds, more, result, .act change resume world _ _ _ speaks,
        List.forall_mem_cons.mpr ⟨rfl, same⟩, answered⟩
  | call offer resume ih =>
      let reply := decide (offer.close? ≠ none ∨ firstClose (said.map Prod.fst) = none)
      obtain ⟨worlds, more, result, speaks, same, answered⟩ := ih reply (answered_snoc answered decide_eq_true_iff)
      refine ⟨worlds, (offer, reply) :: more, result, .call offer resume reply _ _ _ speaks, same, ?_⟩
      rwa [List.append_assoc] at answered

theorem earlier_beyond {said : List (Offer × Bool)} (more : List (Offer × Bool)) {place : Nat}
    (beyond : said.length ≤ place) :
    ∃ others, earlier (said ++ more) place = said.map Prod.fst ++ others := by
  refine ⟨(more.take (place - said.length)).map Prod.fst, ?_⟩
  rw [earlier, List.take_append, List.take_of_length_le beyond, List.map_append]

theorem truthful_append {said more : List (Offer × Bool)} {limit : Nat} (answered : Answered said)
    (unheard : Unheard more)
    (enough : limit ≤ (pushed (said.map Prod.fst)).length ∨ firstClose (said.map Prod.fst) ≠ none) :
    Truthful limit (said ++ more) := by
  -- A reply stands among those that were heard, or behind all of them.
  have split : ∀ {place offer reply}, (said ++ more)[place]? = some (offer, reply) →
      said[place]? = some (offer, reply) ∧ earlier (said ++ more) place = earlier said place ∨
        said.length ≤ place ∧ (offer, reply) ∈ more := by
    intro place offer reply present
    by_cases within : place < said.length
    · rw [List.getElem?_append_left within] at present
      exact .inl ⟨present, earlier_append (Nat.le_of_lt within)⟩
    · rw [List.getElem?_append_right (Nat.le_of_not_lt within)] at present
      exact .inr ⟨Nat.le_of_not_lt within, List.mem_of_getElem? present⟩
  constructor
  · intro offer reply member closes
    obtain ⟨place, present⟩ := List.mem_iff_getElem?.mp member
    rcases split present with ⟨here, _⟩ | ⟨_, later⟩
    · exact (answered place offer reply here).mpr (.inl closes)
    · exact (unheard offer reply later).mpr closes
  · intro place object reply present closed
    rcases split present with ⟨here, same⟩ | ⟨_, later⟩
    · rw [same] at closed
      refine Bool.eq_false_iff.mpr fun told => ?_
      exact closed (((answered place _ reply here).mp told).resolve_left (absurd rfl))
    · exact Bool.eq_false_iff.mpr fun told => (unheard _ reply later).mp told rfl
  · intro place object reply present wanted opened
    rcases split present with ⟨here, same⟩ | ⟨beyond, _⟩
    · exact (answered place _ reply here).mpr (.inr (same ▸ opened))
    · obtain ⟨others, whole⟩ := earlier_beyond more beyond
      have all : firstClose (said.map Prod.fst) = none := by
        rw [whole, first_close_append] at opened
        exact (Option.or_eq_none_iff.mp opened).1
      have few := enough.resolve_right (not_not_intro all)
      rw [length_pushed all, List.length_map] at few
      omega

end Offer

end HeapCensus
