import HeapCensus.Proofs.Lookup
import HeapCensus.Proofs.NotedTags
import Mathlib

set_option autoImplicit false

namespace HeapCensus

variable {ω : Type}

namespace Tag

def nth (number : Nat) : Tag := ⟨UInt64.ofNat number⟩

def firstOnes (amount : Nat) : List Tag := (List.range amount).map fun age => nth (age + 1)

theorem next_nth (amount : Nat) : (TagCounter.mk (nth amount)).next = (nth (amount + 1), ⟨nth (amount + 1)⟩) := by
  simp [TagCounter.next, nth, UInt64.ofNat_add]

theorem first_ones_succ (amount : Nat) : firstOnes (amount + 1) = firstOnes amount ++ [nth (amount + 1)] := by
  rw [firstOnes, List.range_succ, List.map_append]
  rfl

theorem to_nat_nth {number : Nat} (small : number < UInt64.size) : (nth number).value.toNat = number :=
  UInt64.toNat_ofNat_of_lt small

theorem nodup_first_ones {amount : Nat} (few : amount < UInt64.size) : (firstOnes amount).Nodup := by
  apply List.Nodup.map_on _ List.nodup_range
  intro first one second other same
  have small := List.mem_range.mp one
  have less := List.mem_range.mp other
  have numbers := congrArg (fun tag : Tag => tag.value.toNat) same
  rw [to_nat_nth (by omega), to_nat_nth (by omega)] at numbers
  omega

theorem clear_not_first {amount : Nat} (few : amount < UInt64.size) : clear ∉ firstOnes amount := by
  intro member
  obtain ⟨age, within, same⟩ := List.mem_map.mp member
  have small := List.mem_range.mp within
  have number := congrArg (fun tag : Tag => tag.value.toNat) same
  rw [to_nat_nth (by omega)] at number
  cases number

end Tag

namespace Query

def Balanced (session : Session (List Tag × ω)) (own : Multiset Tag) : Prop :=
  ∃ amount, session.ledger.tags = ⟨Tag.nth amount⟩ ∧
    (session.ledger.notes : Multiset Tag) + own = (Tag.firstOnes amount : Multiset Tag)

def tagAccount (opens : Tag → Prop) : Custody (Session (List Tag × ω)) (Multiset Tag) :=
  Custody.accounting (fun session => session.ledger.opens = opens) Balanced

theorem account_noting (opens : Tag → Prop) :
    Noting (tagAccount opens : Custody (Session (List Tag × ω)) (Multiset Tag)) (fun tag => {tag}) 0 where
  unmoved := by
    intro session after own same kept
    refine ⟨(congrArg Ledger.opens same).trans kept, fun rest held => ?_⟩
    rw [Balanced, same]
    exact held
  takes := by
    intro session after own taken kept
    refine ⟨(congrArg Ledger.opens taken).trans kept, fun rest held => ?_⟩
    obtain ⟨amount, counted, balanced⟩ := held
    refine ⟨amount + 1, ?_, ?_⟩
    · rw [taken, Ledger.take, counted, Tag.next_nth]
    · rw [taken, counted, Tag.next_nth, Tag.first_ones_succ, ← Multiset.coe_add, ← balanced, Multiset.coe_singleton]
      simp only [Ledger.take]
      abel
  notes := by
    intro session after tag own noted kept
    refine ⟨(congrArg Ledger.opens noted).trans kept, fun rest held => ?_⟩
    obtain ⟨amount, counted, balanced⟩ := held
    refine ⟨amount, ?_, ?_⟩
    · rw [noted]
      exact counted
    · rw [noted, ← balanced, Ledger.note, ← Multiset.cons_coe, ← Multiset.singleton_add]
      abel

def fee (before after : Session (List Tag × ω)) : Nat × Nat :=
  (if after.ledger.tags = before.ledger.tags then 0 else 1, after.ledger.notes.length - before.ledger.notes.length)

def tagFees : Custody (Session (List Tag × ω)) (Nat × Nat) := Custody.charging (fun _ => True) fee

theorem next_ne (counter : TagCounter) : counter.next.2 ≠ counter := by
  intro same
  have word := congrArg (fun counter : TagCounter => counter.last.value) same
  simp [TagCounter.next] at word

theorem fees_noting :
    Noting (tagFees : Custody (Session (List Tag × ω)) (Nat × Nat)) (fun _ => (1, 0)) (1, 1) where
  unmoved := by
    intro session after own same _
    refine ⟨trivial, ?_⟩
    change own = own + fee session after
    rw [fee, same, if_pos rfl, Nat.sub_self]
    rfl
  takes := by
    intro session after own taken _
    refine ⟨trivial, ?_⟩
    change own + (1, 0) = own + fee session after
    rw [fee, taken, Ledger.take, if_neg (next_ne _), Nat.sub_self]
  notes := by
    intro session after tag own noted _
    refine ⟨trivial, ?_⟩
    change own + (1, 1) = own + (1, 0) + fee session after
    rw [fee, noted, Ledger.note, if_pos rfl, List.length_cons, Nat.add_sub_cancel_left, add_assoc]
    rfl

/-- What a client asks for: an operation, with a limit to what it takes from the stream if that is an
enumeration. In between anything may happen that leaves tags and notes alone, and what can be opened. -/
inductive Request (ω : Type) where
  | asked (operation : Operation) (limit : Nat)
  | passed (change : Session (List Tag × ω) → Session (List Tag × ω))
      (apart : ∀ session, (change session).ledger = session.ledger)

def endings (walker : Walker ω) (type : HeapClass) (max : Int) (limit : Nat) :
    Activity (Session (List Tag × ω)) Ending := do
  let told ← enumerated walker.noted type max limit
  return told.1

def Request.activity (walker : Walker ω) : Request ω → Activity (Session (List Tag × ω)) Ending
  | .asked (.enumerate type max) limit => endings walker type max limit
  | .asked (.forEach type max) _ => endings walker type max (limitOf max)
  | .asked operation _ => do
      let _ ← (operation.query walker.noted).run
      return .settled
  | .passed change _ => Activity.step fun session => (.settled, change session)

def client (walker : Walker ω) (requests : List (Request ω)) : Activity (Session (List Tag × ω)) (List Ending) :=
  Activity.inTurn (requests.map (·.activity walker))

def Ending.tag? : Ending → Option Tag
  | .answered tag => some tag
  | .settled | .lost => none

def answered (endings : List Ending) : List Tag := endings.filterMap Ending.tag?

theorem answered_append (endings others : List Ending) :
    answered (endings ++ others) = answered endings ++ answered others := List.filterMap_append

def Left (opens : Tag → Prop) (own : Multiset Tag) (endings : List Ending) : Prop :=
  ∃ lost : Multiset Tag, own = (answered endings : Multiset Tag) + lost ∧ lost.card = endings.count .lost ∧
    ∀ tag ∈ lost, ¬ opens tag

variable {opens : Tag → Prop}

theorem left_settled : Left opens 0 [.settled] := ⟨0, rfl, rfl, nofun⟩

theorem left_closed {max : Int} {own : Multiset Tag} {ending : Ending}
    (closed : Closed (fun tag => {tag}) 0 (fun tag => ¬ opens tag) max own ending) : Left opens own [ending] := by
  cases closed with
  | rejected | asked => exact left_settled
  | answered tag => exact ⟨0, rfl, rfl, nofun⟩
  | lost tag _ refused =>
      refine ⟨{tag}, rfl, rfl, fun other member => ?_⟩
      rw [Multiset.mem_singleton.mp member]
      exact refused

theorem left_append {own more : Multiset Tag} {endings others : List Ending} (one : Left opens own endings)
    (other : Left opens more others) : Left opens (own + more) (endings ++ others) := by
  obtain ⟨lost, rfl, amount, refused⟩ := one
  obtain ⟨gone, rfl, extra, missing⟩ := other
  refine ⟨lost + gone, ?_, ?_, ?_⟩
  · rw [answered_append, ← Multiset.coe_add]
    abel
  · rw [Multiset.card_add, amount, extra, List.count_append]
  · intro tag member
    exact (Multiset.mem_add.mp member).elim (refused tag) (missing tag)

theorem left_nothing : Left opens 0 [] := ⟨0, rfl, rfl, nofun⟩

theorem left_ended {α : Type} {post : Multiset Tag → α → Prop} {amount : Nat} {own : Multiset Tag}
    {results : List α} (told : α → List Ending) (each : ∀ own result, post own result → Left opens own (told result))
    (ended : Activity.Ended post amount own results) : Left opens own (results.flatMap told) := by
  obtain ⟨ends, rfl, rfl, rfl, all⟩ := ended
  induction ends with
  | nil => exact left_nothing
  | cons last ends ih =>
      obtain ⟨done, others⟩ := List.forall_mem_cons.mp all
      exact left_append (each _ _ done) (ih others)

section Clients

variable (walker : Walker ω)

theorem operation_repeats {M : Type} [AddCommMonoid M] {custody : Custody (Session (List Tag × ω)) M}
    {took : Tag → M} {spent : M} (noting : Noting custody took spent) (operation : Operation)
    (listed : ∀ type max, operation ≠ .enumerate type max) (handed : ∀ type max, operation ≠ .forEach type max) :
    Costs custody (Repeats spent) (operation.query walker.noted) := by
  have charging := noting_charges noting walker
  cases operation with
  | countExact | countAny | instancesOf | instancesOfAny | resolve | countOf | countOfAny =>
      exact repeats_plain charging trivial
  | cardinality type max => exact costs_value (repeats_charged (costs_cardinality noting walker type max))
  | enumerate type max => exact absurd rfl (listed type max)
  | forEach type max => exact absurd rfl (handed type max)
  | topInstances name rows withoutPrimitives =>
      exact costs_value (repeats_top_instances noting walker name rows withoutPrimitives)

variable (opens : Tag → Prop)

theorem endings_left (type : HeapClass) (max : Int) (limit : Nat) :
    Activity.Carries (tagAccount opens) (fun own ending => Left opens own [ending])
      (endings walker type max limit) 0 := by
  have noting : Noting (tagAccount opens : Custody (Session (List Tag × ω)) _) _ _ := account_noting opens
  have settled : ∀ (session : Session (List Tag × ω)) tag, (tagAccount opens).kept session →
      ¬ session.census.Opens tag → ¬ opens tag := by
    rintro session tag rfl refused
    exact refused
  refine Activity.carries_bind _ (fun own told closed => ?_)
    (enumerated_closes (noting_charges noting walker) _ settled (supplies_producer noting walker) type max limit)
  exact left_closed closed

theorem operation_left (operation : Operation) (listed : ∀ type max, operation ≠ .enumerate type max)
    (handed : ∀ type max, operation ≠ .forEach type max) :
    Activity.Carries (tagAccount opens) (fun own ending => Left opens own [ending])
      (Dialogue.bind (operation.query walker.noted).run fun _ => .stop .settled) 0 := by
  refine Activity.carries_bind _ ?_ (operation_repeats walker (account_noting opens) operation listed handed)
  rintro _ outcome ⟨amount, rfl⟩
  rw [nsmul_zero]
  exact left_settled

theorem request_left (request : Request ω) :
    Activity.Carries (tagAccount opens) (fun own ending => Left opens own [ending])
      (request.activity walker) 0 := by
  cases request with
  | asked operation limit =>
      cases operation with
      | enumerate type max => exact endings_left walker opens type max limit
      | forEach type max => exact endings_left walker opens type max (limitOf max)
      | countExact | countAny | instancesOf | instancesOfAny | cardinality | resolve | countOf | countOfAny
      | topInstances => exact operation_left walker opens _ nofun nofun
  | passed change apart =>
      exact Activity.carries_step fun session =>
        ⟨0, (account_noting opens).unmoved session _ 0 (apart session), left_settled⟩

theorem client_left (requests : List (Request ω)) :
    Activity.Carries (tagAccount opens) (Left opens) (client walker requests) 0 := by
  have each : ∀ activity ∈ requests.map (·.activity walker), Activity.Carries (tagAccount opens)
      (fun own ending => Left opens own [ending]) activity 0 := by
    intro activity member
    obtain ⟨request, _, rfl⟩ := List.mem_map.mp member
    exact request_left walker opens request
  refine Activity.carries_weaken ?_ (Activity.carries_each [] each)
  intro own endings ended
  have left := left_ended (fun ending => [ending]) (fun _ _ left => left) ended
  rwa [List.flatMap_singleton'] at left

theorem clients_left (schedule : List Nat) (clients : List (List (Request ω))) :
    Activity.Carries (tagAccount opens) (fun own results => Left opens own results.flatten)
      (Activity.interleave schedule (clients.map (client walker))) 0 := by
  have each : ∀ activity ∈ clients.map (client walker),
      Activity.Carries (tagAccount opens) (Left opens) activity 0 := by
    intro activity member
    obtain ⟨requests, _, rfl⟩ := List.mem_map.mp member
    exact client_left walker opens requests
  refine Activity.carries_weaken ?_ (Activity.carries_each schedule each)
  intro own results ended
  have left := left_ended id (fun _ _ left => left) ended
  rwa [List.flatMap_id] at left

end Clients

/-- What is known of tags when some clients have been served: what the walker has noted, the tags of streams
that it was not asked for, and those of streams that could not be opened. -/
structure TagsApart (session : Session (List Tag × ω)) (endings : List Ending) : Prop where
  distinct : (session.ledger.notes ++ answered endings).Nodup
  nonzero : Tag.clear ∉ session.ledger.notes ++ answered endings
  last : session.census.registry.tags.last.value.toNat =
    session.ledger.notes.length + (answered endings).length + endings.count .lost
  lost : ∃ lost : List Tag, lost.length = endings.count .lost ∧
    (session.ledger.notes ++ answered endings ++ lost).Nodup ∧ ∀ tag ∈ lost, ¬ session.census.Opens tag

def Unused (session : Session (List Tag × ω)) : Prop := session.ledger.tags = {} ∧ session.ledger.notes = []

def conduct (walker : Walker ω) (schedule : List Nat) (clients : List (List (Request ω)))
    (session : Session (List Tag × ω)) : List Ending × Session (List Tag × ω) :=
  let done := Activity.run (Activity.interleave schedule (clients.map (client walker))) session
  (done.1.flatten, done.2)

theorem balanced_unused {session : Session (List Tag × ω)} (unused : Unused session) : Balanced session (0 + 0) := by
  refine ⟨0, unused.1, ?_⟩
  rw [unused.2]
  rfl

theorem apart_of_balanced {session : Session (List Tag × ω)} {endings : List Ending} {own : Multiset Tag}
    (balanced : Balanced session own) (left : Left session.census.Opens own endings)
    (few : session.ledger.notes.length + (answered endings).length + endings.count .lost < UInt64.size) :
    TagsApart session endings := by
  obtain ⟨amount, counted, balanced⟩ := balanced
  obtain ⟨gone, rfl, many, refused⟩ := left
  obtain ⟨lost, rfl⟩ := Quot.exists_rep gone
  change (lost : Multiset Tag).card = _ at many
  have whole : ((session.ledger.notes ++ answered endings ++ lost : List Tag) : Multiset Tag) =
      (Tag.firstOnes amount : Multiset Tag) := by
    rw [← balanced, ← Multiset.coe_add, ← Multiset.coe_add, add_assoc]
    rfl
  -- noted, answered and lost tags are together the first ones of the counter, each once below 2^64
  have sizes := congrArg Multiset.card whole
  rw [Multiset.coe_card, Multiset.coe_card, List.length_append, List.length_append, ← Multiset.coe_card lost, many,
    Tag.firstOnes, List.length_map, List.length_range] at sizes
  have small : amount < UInt64.size := sizes ▸ few
  have apart : (session.ledger.notes ++ answered endings ++ lost).Nodup :=
    Multiset.coe_nodup.mp (whole ▸ Multiset.coe_nodup.mpr (Tag.nodup_first_ones small))
  constructor
  case distinct => exact (List.nodup_append'.mp apart).1
  case nonzero =>
    intro member
    have among : Tag.clear ∈ (Tag.firstOnes amount : Multiset Tag) :=
      whole ▸ Multiset.mem_coe.mpr (List.mem_append_left lost member)
    exact Tag.clear_not_first small among
  case last =>
    have counter : session.census.registry.tags = ⟨Tag.nth amount⟩ := counted
    rw [counter, Tag.to_nat_nth small, sizes]
  case lost => exact ⟨lost, many, apart, fun tag member => refused tag (Multiset.mem_coe.mpr member)⟩

theorem conduct_apart (walker : Walker ω) (schedule : List Nat) (clients : List (List (Request ω)))
    (session : Session (List Tag × ω)) (unused : Unused session) :
    let done := conduct walker schedule clients session
    done.2.ledger.notes.length + (answered done.1).length + done.1.count .lost < UInt64.size →
      TagsApart done.2 done.1 := by
  intro done few
  obtain ⟨kept, own, balanced, left⟩ :=
    Activity.carries_run (clients_left walker session.ledger.opens schedule clients) rfl (balanced_unused unused)
  rw [zero_add] at balanced
  have same : done.2.census.Opens = session.ledger.opens := kept
  rw [← same] at left
  exact apart_of_balanced balanced left few

open Activity (Course paid)

def Operation.due? : Operation → Option Nat
  | countExact type max | instancesOf type max => some (if max < 0 ∨ type.isConcrete = false then 0 else 1)
  | countAny _ max | instancesOfAny _ max | cardinality _ max | enumerate _ max | forEach _ max =>
      some (if max < 0 then 0 else 1)
  | resolve _ | countOf _ | countOfAny _ | topInstances _ _ _ => none

section Fees

variable {α : Type} {steps : List (Session (List Tag × ω) × Session (List Tag × ω))}

theorem course_costs {post : Nat × Nat → Prop} {query : Query (List Tag × ω) α} {outcome : Outcome QueryError α}
    (costs : Costs tagFees post query) (course : Course query.run steps outcome) : post (paid fee steps) := by
  have pays := Activity.course_pays costs course fun _ _ => trivial
  rwa [zero_add] at pays

theorem fees_charges (walker : Walker ω) : Charging walker.noted tagFees (fun _ => (1, 0)) (1, 1) :=
  noting_charges fees_noting walker

def DueUnless (choice : Prop) [Decidable choice] (own : Nat × Nat) : Prop := own.1 = if choice then 0 else 1

theorem due_charged {choice : Prop} [Decidable choice] {query : Query (List Tag × ω) α}
    (costs : Costs tagFees (· = if choice then 0 else (1, 1)) query) :
    Costs tagFees (DueUnless choice) (do let _ ← query) := by
  apply costs_value (costs_weaken costs fun own charged => ?_)
  rw [charged, DueUnless]
  by_cases chosen : choice
  · rw [if_pos chosen, if_pos chosen]
    rfl
  · rw [if_neg chosen, if_neg chosen]

theorem due_enumerate (walker : Walker ω) (type : HeapClass) (max : Int) :
    Costs tagFees (DueUnless (max < 0)) (do let _ ← enumerate walker.noted type max) := by
  apply costs_value
  refine Activity.carries_weaken ?_ (enumerate_opens (fees_charges walker) (fun _ => True) (fun _ _ _ _ => trivial) type max)
  intro own outcome opened
  cases opened with
  | rejected _ negative => exact (if_pos negative).symm
  | answered _ nonneg | started _ _ _ nonneg | lost _ _ nonneg => exact (if_neg (Int.not_lt.mpr nonneg)).symm

theorem due_for_each (walker : Walker ω) (type : HeapClass) (max : Int) :
    Costs tagFees (DueUnless (max < 0)) ((Operation.forEach type max).query walker.noted) := by
  have closes := enumerated_closes (fees_charges walker) (fun _ => True) (fun _ _ _ _ => trivial)
    (supplies_producer fees_noting walker) type max (limitOf max)
  have settled : ∀ own ending, Closed (fun _ => (1, 0)) (1, 1) (fun _ => True) max own ending → DueUnless (max < 0) own := by
    intro own ending closed
    cases closed with
    | rejected negative => exact (if_pos negative).symm
    | asked nonneg | answered _ nonneg | lost _ nonneg => exact (if_neg (Int.not_lt.mpr nonneg)).symm
  change Activity.Carries tagFees _ (Dialogue.bind (forEachInstance walker.noted type max) _) 0
  rw [for_each_enumerated, Activity.bind_assoc]
  refine Activity.carries_bind _ ?_ closes
  exact fun own told closed => settled own told.1 closed

theorem of_due {choice : Prop} [Decidable choice] {amount : Nat} {query : Query (List Tag × ω) α}
    (due : some (if choice then 0 else 1) = some amount) (costs : Costs tagFees (DueUnless choice) query) :
    Costs tagFees (fun own => own.1 = amount) query :=
  costs_weaken costs fun _ charged => charged.trans (Option.some.inj due)

theorem operation_due (walker : Walker ω) {operation : Operation} {amount : Nat} (due : operation.due? = some amount) :
    Costs tagFees (fun own => own.1 = amount) (operation.query walker.noted) := by
  have charging := fees_charges walker
  cases operation with
  | resolve | countOf | countOfAny | topInstances => cases due
  | countExact type max => exact of_due due (due_charged (costs_count_exact charging type max))
  | instancesOf type max => exact of_due due (due_charged (costs_instances_of charging type max))
  | countAny type max => exact of_due due (due_charged (costs_count_any charging type max))
  | instancesOfAny type max => exact of_due due (due_charged (costs_instances_of_any charging type max))
  | cardinality type max => exact of_due due (due_charged (costs_cardinality fees_noting walker type max))
  | enumerate type max => exact of_due due (due_enumerate walker type max)
  | forEach type max => exact of_due due (due_for_each walker type max)

end Fees

def rootsOf : Outcome QueryError (List HeapClass) → Nat
  | .ok types => types.length
  | .error _ => 0

/-- What the steps of a query cost, whatever others do between them. -/
structure OwnTags (walker : Walker ω) : Prop where
  byClass : ∀ (operation : Operation) amount steps outcome, operation.due? = some amount →
    Course (operation.query walker.noted).run steps outcome → (paid fee steps).1 = amount
  silent : ∀ (type : HeapClass) max, type.isConcrete = false →
    ∀ operation ∈ [Operation.countExact type max, .instancesOf type max], ∀ steps outcome,
      Course (operation.query walker.noted).run steps outcome → paid fee steps = 0
  search : ∀ text steps outcome, Course (resolve walker.noted text).run steps outcome → (paid fee steps).1 ≤ 1
  primitive : ∀ text name steps outcome, TypeName.parse text = .ok name → isPrimitiveName name.base = true →
    Course (resolve walker.noted text).run steps outcome → (paid fee steps).1 = 0
  remembered : ∀ text name types session after steps outcome, TypeName.parse text = .ok name →
    session.remembered? name = some types →
      Course (resolve walker.noted text).run ((session, after) :: steps) outcome →
        paid fee [(session, after)] = 0 ∧ steps = [] ∧ outcome = .ok types
  ranking : ∀ name rows withoutPrimitives steps outcome, rows ≠ 0 →
    Course (topInstances walker.noted name rows withoutPrimitives).run steps outcome →
      ∃ session front found back, steps = (session, session) :: (front ++ back) ∧
        Course (resolve walker.noted name).run front found ∧ (paid fee back).1 = rootsOf found

theorem course_step {α β : Type} {f : Session ω → β × Session ω} {next : β → Query ω α}
    {steps : List (Session ω × Session ω)} {outcome : Outcome QueryError α}
    (course : Course (Query.step f >>= next).run steps outcome) :
    ∃ session later, steps = (session, (f session).2) :: later ∧ Course (next (f session).1).run later outcome := by
  change Course (.act (fun session => (f session).2) fun session => (next (f session).1).run) steps outcome at course
  cases course with
  | act _ _ session later _ onwards => exact ⟨session, later, rfl, onwards⟩

theorem course_done {α : Type} {result outcome : α} {steps : List (Session ω × Session ω)}
    (course : Course (.stop result) steps outcome) : steps = [] ∧ outcome = result := by
  cases course with
  | stop => exact ⟨rfl, rfl⟩

theorem remembered_course {walker : Walker ω} {text : String} {name : TypeName} {types : List HeapClass}
    {session after : Session ω} {steps : List (Session ω × Session ω)} {outcome : Outcome QueryError (List HeapClass)}
    (parsed : TypeName.parse text = .ok name) (cached : session.remembered? name = some types)
    (course : Course (resolve walker text).run ((session, after) :: steps) outcome) :
    after = session.hit ∧ steps = [] ∧ outcome = .ok types := by
  rw [resolve_parsed walker parsed] at course
  obtain ⟨first, later, same, onwards⟩ := course_step course
  obtain ⟨stepped, rfl⟩ := List.cons.inj same
  obtain ⟨rfl, rfl⟩ := Prod.mk.inj stepped
  have found : session.census.resolutions.find? name session.census.clock = some types := cached
  simp only [Resolutions.lookup, found] at onwards ⊢
  obtain ⟨rfl, rfl⟩ := course_done onwards
  exact ⟨rfl, rfl, rfl⟩

theorem ranking_course {walker : Walker ω} {name : String} {rows : Nat} {withoutPrimitives : Bool}
    {steps : List (Session (List Tag × ω) × Session (List Tag × ω))} {outcome : Outcome QueryError RankingReport}
    (positive : rows ≠ 0) (course : Course (topInstances walker.noted name rows withoutPrimitives).run steps outcome) :
    ∃ session front found back, steps = (session, session) :: (front ++ back) ∧
      Course (resolve walker.noted name).run front found ∧ (paid fee back).1 = rootsOf found := by
  rw [top_instances_eq walker.noted name positive] at course
  obtain ⟨session, later, rfl, onwards⟩ := course_step course
  obtain ⟨whole, checked, scanned, rfl, resolved, ranked⟩ := Activity.course_bind onwards
  obtain ⟨front, found, checks, rfl, searched, passed⟩ := Activity.course_bind resolved
  -- an empty resolution fails the check, which makes no steps, and counts as no root
  have none : checks = [] ∧ (∀ types, checked = .ok types → found = .ok types) ∧
      (∀ failure, checked = .error failure → rootsOf found = 0) := by
    cases found with
    | error failure =>
        obtain ⟨rfl, rfl⟩ := course_done passed
        exact ⟨rfl, nofun, fun _ _ => rfl⟩
    | ok types =>
        cases types with
        | nil =>
            obtain ⟨rfl, rfl⟩ := course_done passed
            exact ⟨rfl, nofun, fun _ _ => rfl⟩
        | cons type types =>
            obtain ⟨rfl, rfl⟩ := course_done passed
            exact ⟨rfl, fun _ same => same, nofun⟩
  obtain ⟨rfl, found_of_ok, nothing_of_error⟩ := none
  refine ⟨session, front, found, scanned, ?_, searched, ?_⟩
  · rw [List.append_nil]
  · cases checked with
    | ok types =>
        have costs := course_costs
          (costs_rank_found fees_noting walker name rows withoutPrimitives session.census.clock types) ranked
        rw [costs, found_of_ok types rfl, rootsOf, Prod.smul_fst, smul_eq_mul, Nat.mul_one]
    | error failure =>
        obtain ⟨rfl, _⟩ := course_done ranked
        exact (nothing_of_error failure rfl).symm

theorem tags_own (walker : Walker ω) : OwnTags walker where
  byClass operation amount steps outcome due course := course_costs (operation_due walker due) course
  silent := by
    intro type max abstract operation member steps outcome course
    have charging := fees_charges walker
    have free : ∀ own : Nat × Nat,
        own = (if max < 0 ∨ type.isConcrete = false then 0 else (1, 1)) → own = 0 :=
      fun own charged => charged.trans (if_pos (.inr abstract))
    rcases List.mem_pair.mp member with rfl | rfl
    · exact course_costs (costs_value (costs_weaken (costs_count_exact charging type max) free)) course
    · exact course_costs (costs_value (costs_weaken (costs_instances_of charging type max) free)) course
  search text steps outcome course := by
    rcases course_costs (costs_resolve (fees_charges walker) text) course with none | ⟨once, _⟩
    · rw [none]
      exact Nat.zero_le 1
    · rw [once]
  primitive text name steps outcome parsed primitive course := by
    rcases course_costs (costs_resolve (fees_charges walker) text) course with none | ⟨_, other, again, named⟩
    · rw [none]
      rfl
    · obtain rfl := Except.ok.inj (parsed.symm.trans again)
      rw [primitive] at named
      cases named
  remembered := by
    intro text name types session after steps outcome parsed cached course
    obtain ⟨rfl, nothing, found⟩ := remembered_course parsed cached course
    have same : session.hit.ledger = session.ledger := rfl
    refine ⟨?_, nothing, found⟩
    rw [paid, List.map_singleton, List.sum_singleton, fee, same, if_pos rfl, Nat.sub_self]
    rfl
  ranking _ _ _ _ _ positive course := ranking_course positive course

theorem queries_own_tags (walker : Walker ω) (schedule : List Nat) (clients : List (List (Request ω)))
    (session : Session (List Tag × ω)) (unused : Unused session)
    (few : (conduct walker schedule clients session).2.ledger.notes.length +
      (answered (conduct walker schedule clients session).1).length +
      (conduct walker schedule clients session).1.count .lost < UInt64.size) :
    TagsApart (conduct walker schedule clients session).2 (conduct walker schedule clients session).1 ∧
      OwnTags walker :=
  ⟨conduct_apart walker schedule clients session unused few, tags_own walker⟩

def watched (capacity : Nat) (machine : Machine) : Session (List Tag × SyntheticHeap) :=
  let census := Census.idle (Latency.empty 1 Nat.one_pos)
  let defined := SyntheticHeap.new.defineClass "Base" none
  let settings := { census.settings with streamCapacity := capacity }
  { census := { census with settings := settings, machine := machine }
    world := ([], (defined.2.allocateMany defined.1 2).2) }

def based : HeapClass := .plain ⟨12⟩ "Base" .concrete none

def counters : List (List (Request SyntheticHeap)) :=
  [[.asked (.countAny based 0) 0, .asked (.enumerate based 0) 1],
    [.asked (.enumerate SyntheticHeap.classLoader 0) 1, .asked (.cardinality based 0) 0]]

def counted : List Ending × Session (List Tag × SyntheticHeap) :=
  conduct SyntheticHeap.walker [0, 1, 1, 0, 1, 0] counters (watched 1 Machine.ample)

theorem counters_own_tags :
    Unused (watched 1 Machine.ample) ∧
      counted.2.ledger.notes.length + (answered counted.1).length + counted.1.count .lost < UInt64.size ∧
      TagsApart counted.2 counted.1 ∧ OwnTags SyntheticHeap.walker ∧
      counted.2.ledger.notes = [⟨4⟩, ⟨3⟩, ⟨1⟩] ∧ answered counted.1 = [⟨2⟩] := by
  have unused : Unused (watched 1 Machine.ample) := ⟨rfl, rfl⟩
  have notes : counted.2.ledger.notes = [⟨4⟩, ⟨3⟩, ⟨1⟩] := by cbv
  have endings : counted.1 = [.settled, .settled, .answered ⟨2⟩, .settled] := by cbv
  have few : counted.2.ledger.notes.length + (answered counted.1).length + counted.1.count .lost < UInt64.size := by
    rw [notes, endings]
    decide
  obtain ⟨apart, own⟩ :=
    queries_own_tags SyntheticHeap.walker [0, 1, 1, 0, 1, 0] counters (watched 1 Machine.ample) unused few
  exact ⟨unused, few, apart, own, notes, by rw [endings]; rfl⟩

/-- One enumeration on a machine without room for its stream. Its tag is never heard of again. -/
def unheard : List Ending × Session (List Tag × SyntheticHeap) :=
  conduct SyntheticHeap.walker [] [[.asked (.enumerate based 0) 1]] (watched (2 ^ 58) (.cramped (2 ^ 58)))

theorem vast_enumeration_tag_lost :
    Unused (watched (2 ^ 58) (.cramped (2 ^ 58))) ∧
      unheard.2.ledger.notes.length + (answered unheard.1).length + unheard.1.count .lost < UInt64.size ∧
      unheard.2.census.registry.tags.last.value.toNat ≠
        unheard.2.ledger.notes.length + (answered unheard.1).length := by
  have notes : unheard.2.ledger.notes = [] := by cbv
  have endings : unheard.1 = [.lost] := by cbv
  have last : unheard.2.census.registry.tags.last = ⟨1⟩ := by cbv
  rw [notes, endings, last]
  exact ⟨⟨rfl, rfl⟩, by decide, by decide⟩

end Query

end HeapCensus
