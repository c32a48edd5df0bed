import HeapCensus.Binding

set_option autoImplicit false

namespace HeapCensus.Binding

variable {agent : Agent} {binding later : Binding} {handle : Nat}

def arrayFrom (agent : Agent) (handle : Nat) (component : HeapClass) : HeapClass :=
  .array ⟨handle⟩ (nameOf (agent.describe handle).2) component (loaderOf (agent.describe handle).2)

def plainFrom (agent : Agent) (handle : Nat) (kind : Kind) : HeapClass :=
  .plain ⟨handle⟩ (nameOf (agent.describe handle).2) kind (loaderOf (agent.describe handle).2)

structure Unknown (known : Nat → Option HeapClass) (handle : Nat) : Prop where
  other : handle ≠ 0
  unknown : known handle = none

structure DescribesArray (agent : Agent) (handle : Nat) : Prop where
  status : (agent.describe handle).1 = 0
  kind : (agent.describe handle).2.kind = Description.arrayKind

structure DescribesPlain (agent : Agent) (handle : Nat) (kind : Kind) : Prop where
  status : (agent.describe handle).1 = 0
  kind : plainKind? (agent.describe handle).2.kind = some kind

theorem not_array_of_plain {number : Nat} {kind : Kind} (plain : plainKind? number = some kind) :
    number ≠ Description.arrayKind := by
  rintro rfl
  cases plain

/-- The class of a handle as it can be read off: known, or described over what its component reads. -/
inductive Reads (agent : Agent) (known : Nat → Option HeapClass) : Nat → HeapClass → Prop
  | known {handle : Nat} {type : HeapClass} :
      handle ≠ 0 → known handle = some type → Reads agent known handle type
  | plain {handle : Nat} {kind : Kind} :
      Unknown known handle → DescribesPlain agent handle kind →
      Reads agent known handle (plainFrom agent handle kind)
  | array {handle : Nat} {component : HeapClass} :
      Unknown known handle → DescribesArray agent handle →
      Reads agent known (agent.describe handle).2.component component →
      Reads agent known handle (arrayFrom agent handle component)

theorem reads_unique {known : Nat → Option HeapClass} {first second : HeapClass}
    (one : Reads agent known handle first) (other : Reads agent known handle second) : first = second := by
  induction one generalizing second with
  | known _ found =>
      cases other with
      | known _ again => exact Option.some.inj (found.symm.trans again)
      | plain unknown | array unknown => exact nomatch found.symm.trans unknown.unknown
  | plain unknown described =>
      cases other with
      | known _ found => exact nomatch found.symm.trans unknown.unknown
      | plain _ again => rw [Option.some.inj (described.kind.symm.trans again.kind)]
      | array _ again => exact absurd again.kind (not_array_of_plain described.kind)
  | array unknown described _ ih =>
      cases other with
      | known _ found => exact nomatch found.symm.trans unknown.unknown
      | plain _ again => exact absurd described.kind (not_array_of_plain again.kind)
      | array _ _ reads => rw [ih reads]

theorem look_none : binding.lookup? 0 = some (.error (.unknownHandle 0), binding) := by
  rw [lookup?, if_pos rfl]

theorem look_known {type : HeapClass} (other : handle ≠ 0) (found : binding.known? handle = some type) :
    binding.lookup? handle = some (.ok type, binding) := by
  rw [lookup?, if_neg other, found]

theorem look_refused (unknown : Unknown binding.known? handle) (status : (binding.agent.describe handle).1 ≠ 0) :
    binding.lookup? handle =
      some (.error (.native "class_info" (binding.agent.describe handle).1), binding.asked) := by
  rw [lookup?, if_neg unknown.other, unknown.unknown]
  exact if_pos status

theorem look_plain {kind : Kind} (unknown : Unknown binding.known? handle)
    (described : DescribesPlain binding.agent handle kind) :
    binding.lookup? handle =
      some ((binding.asked.remember handle (plainFrom binding.agent handle kind)).map .ok id) := by
  rw [lookup?, if_neg unknown.other, unknown.unknown]
  simp only [described.status, ne_eq, not_true_eq_false, if_false, described.kind,
    if_neg (not_array_of_plain described.kind)]
  rfl

theorem look_odd (unknown : Unknown binding.known? handle) (status : (binding.agent.describe handle).1 = 0)
    (other : (binding.agent.describe handle).2.kind ≠ Description.arrayKind)
    (odd : plainKind? (binding.agent.describe handle).2.kind = none) :
    binding.lookup? handle =
      some (.error (.fault ("Class " ++ Nat.repr handle ++ " has unknown kind " ++
        Nat.repr (binding.agent.describe handle).2.kind)), binding.asked) := by
  rw [lookup?, if_neg unknown.other, unknown.unknown]
  simp only [status, ne_eq, not_true_eq_false, if_false, if_neg other, odd]

theorem look_array (unknown : Unknown binding.known? handle) (described : DescribesArray binding.agent handle) :
    binding.lookup? handle =
      (binding.asked.lookup? (binding.agent.describe handle).2.component).map
        (enclosed handle (binding.agent.describe handle).2) := by
  rw [lookup?, if_neg unknown.other, unknown.unknown]
  simp only [described.status, ne_eq, not_true_eq_false, if_false, if_pos described.kind]
  rw [Option.map_eq_bind]
  rfl

/-- Everything that a lookup can do. -/
inductive Looks : Binding → Nat → Except WalkerError HeapClass → Binding → Prop
  | none {binding : Binding} : Looks binding 0 (.error (.unknownHandle 0)) binding
  | known {binding : Binding} {handle : Nat} {type : HeapClass} :
      handle ≠ 0 → binding.known? handle = some type → Looks binding handle (.ok type) binding
  | refused {binding : Binding} {handle : Nat} :
      Unknown binding.known? handle → (binding.agent.describe handle).1 ≠ 0 →
      Looks binding handle (.error (.native "class_info" (binding.agent.describe handle).1)) binding.asked
  | odd {binding : Binding} {handle : Nat} :
      Unknown binding.known? handle → (binding.agent.describe handle).1 = 0 →
      (binding.agent.describe handle).2.kind ≠ Description.arrayKind →
      plainKind? (binding.agent.describe handle).2.kind = none →
      Looks binding handle
        (.error (.fault ("Class " ++ Nat.repr handle ++ " has unknown kind " ++
          Nat.repr (binding.agent.describe handle).2.kind))) binding.asked
  | plain {binding : Binding} {handle : Nat} {kind : Kind} :
      Unknown binding.known? handle → DescribesPlain binding.agent handle kind →
      Looks binding handle (.ok (binding.asked.remember handle (plainFrom binding.agent handle kind)).1)
        (binding.asked.remember handle (plainFrom binding.agent handle kind)).2
  | failed {binding after : Binding} {handle : Nat} {error : WalkerError} :
      Unknown binding.known? handle → DescribesArray binding.agent handle →
      Looks binding.asked (binding.agent.describe handle).2.component (.error error) after →
      Looks binding handle (.error error) after
  | array {binding after : Binding} {handle : Nat} {component : HeapClass} :
      Unknown binding.known? handle → DescribesArray binding.agent handle →
      Looks binding.asked (binding.agent.describe handle).2.component (.ok component) after →
      Looks binding handle (.ok (after.remember handle (arrayFrom binding.agent handle component)).1)
        (after.remember handle (arrayFrom binding.agent handle component)).2

theorem lookup_of_looks {result : Except WalkerError HeapClass} (looks : Looks binding handle result later) :
    binding.lookup? handle = some (result, later) := by
  induction looks with
  | none => exact look_none
  | known other found => exact look_known other found
  | refused unknown status => exact look_refused unknown status
  | odd unknown status other odd => exact look_odd unknown status other odd
  | plain unknown described => exact look_plain unknown described
  | failed unknown described _ ih | array unknown described _ ih =>
      rw [look_array unknown described, ih]
      rfl

theorem looks_of_lookup {result : Except WalkerError HeapClass} (found : binding.lookup? handle = some (result, later)) :
    Looks binding handle result later := by
  -- A lookup that returns is one of the approximations of the recursion, so it has a tree of steps.
  refine lookup?.partial_correctness (fun binding handle done => Looks binding handle done.1 done.2) ?_
    binding handle (result, later) found
  clear found
  intro search ih binding handle done found
  by_cases other : handle = 0
  · subst other
    rw [if_pos rfl] at found
    obtain rfl := Option.some.inj found
    exact .none
  rw [if_neg other] at found
  cases known : binding.known? handle with
  | some type =>
      simp only [known] at found
      obtain rfl := Option.some.inj found
      exact .known other known
  | none =>
      have unknown : Unknown binding.known? handle := ⟨other, known⟩
      simp only [known] at found
      split at found
      · rename_i status
        obtain rfl := Option.some.inj found
        exact .refused unknown status
      rename_i success
      have status := Decidable.not_not.mp success
      split at found
      · rename_i kind
        obtain ⟨component, searched, same⟩ := Option.bind_eq_some_iff.mp found
        obtain rfl := Option.some.inj same
        have inner := ih _ _ _ searched
        obtain ⟨answer, after⟩ := component
        cases answer with
        | error error => exact .failed unknown ⟨status, kind⟩ inner
        | ok component => exact .array unknown ⟨status, kind⟩ inner
      rename_i kind
      split at found
      · rename_i odd
        obtain rfl := Option.some.inj found
        exact .odd unknown status kind odd
      · rename_i plain named
        obtain rfl := Option.some.inj found
        exact .plain unknown ⟨status, named⟩

/-- A component that a lookup goes on to. -/
structure Leads (agent : Agent) (known : Nat → Option HeapClass) (component handle : Nat) : Prop where
  unknown : Unknown known handle
  array : DescribesArray agent handle
  leads : (agent.describe handle).2.component = component

/-- The components that a lookup goes on to come to an end. -/
def Settles (binding : Binding) (handle : Nat) : Prop := Acc (Leads binding.agent binding.known?) handle

theorem settles_of_looks {result : Except WalkerError HeapClass} (looks : Looks binding handle result later) :
    Settles binding handle := by
  induction looks with
  | none => exact Acc.intro _ fun _ leads => absurd rfl leads.unknown.other
  | known _ found => exact Acc.intro _ fun _ leads => nomatch found.symm.trans leads.unknown.unknown
  | refused _ status => exact Acc.intro _ fun _ leads => absurd leads.array.status status
  | odd _ _ other => exact Acc.intro _ fun _ leads => absurd leads.array.kind other
  | plain _ described =>
      exact Acc.intro _ fun _ leads => absurd leads.array.kind (not_array_of_plain described.kind)
  | failed _ _ _ ih | array _ _ _ ih => exact Acc.intro _ fun _ leads => leads.leads ▸ ih

theorem asked_agent (binding : Binding) : binding.asked.agent = binding.agent := rfl

theorem asked_known (binding : Binding) : binding.asked.known? = binding.known? := rfl

theorem looks_of_settled {known : Nat → Option HeapClass} (settled : Acc (Leads agent known) handle)
    (spoken : binding.agent = agent) (same : binding.known? = known) :
    ∃ result later, Looks binding handle result later := by
  induction settled generalizing binding with
  | intro handle _ ih =>
      subst spoken same
      by_cases other : handle = 0
      · subst other
        exact ⟨_, _, .none⟩
      cases found : binding.known? handle with
      | some type => exact ⟨_, _, .known other found⟩
      | none =>
          have unknown : Unknown binding.known? handle := ⟨other, found⟩
          by_cases status : (binding.agent.describe handle).1 = 0
          · by_cases kind : (binding.agent.describe handle).2.kind = Description.arrayKind
            · have described : DescribesArray binding.agent handle := ⟨status, kind⟩
              obtain ⟨answer, after, inner⟩ := ih _ ⟨unknown, described, rfl⟩ (asked_agent binding) (asked_known binding)
              cases answer with
              | error error => exact ⟨_, _, .failed unknown described inner⟩
              | ok component => exact ⟨_, _, .array unknown described inner⟩
            · cases named : plainKind? (binding.agent.describe handle).2.kind with
              | none => exact ⟨_, _, .odd unknown status kind named⟩
              | some plain => exact ⟨_, _, .plain unknown ⟨status, named⟩⟩
          · exact ⟨_, _, .refused unknown status⟩

theorem lookup_returns_iff (binding : Binding) (handle : Nat) :
    (∃ done, binding.lookup? handle = some done) ↔ Settles binding handle := by
  -- A lookup returns where the components come to an end, and nowhere else.
  constructor
  · rintro ⟨done, found⟩
    exact settles_of_looks (looks_of_lookup found)
  · intro settles
    obtain ⟨result, later, looks⟩ := looks_of_settled settles rfl rfl
    exact ⟨_, lookup_of_looks looks⟩

/-- What earlier lookups have left: the known classes stay, and a new one is what its handle reads. -/
structure Remembers (binding later : Binding) : Prop where
  agent : later.agent = binding.agent
  kept : ∀ handle type, binding.known? handle = some type → later.known? handle = some type
  read : ∀ handle type, handle ≠ 0 → later.known? handle = some type →
    Reads binding.agent binding.known? handle type

theorem remembers_refl (binding : Binding) : Remembers binding binding :=
  ⟨rfl, fun _ _ found => found, fun _ _ other found => .known other found⟩

theorem remember_known {held : HeapClass} (found : binding.known? handle = some held) (type : HeapClass) :
    binding.remember handle type = (held, binding) := by
  rw [remember, found]

theorem remember_new (unknown : binding.known? handle = none) (type : HeapClass) :
    binding.remember handle type =
      (type, { binding with known := binding.known ++ [(handle, type)] }) := by
  rw [remember, unknown]

theorem known_new (unknown : binding.known? handle = none) (type : HeapClass) (other : Nat) :
    (binding.remember handle type).2.known? other =
      if other = handle then some type else binding.known? other := by
  rw [remember_new unknown, known?, List.find?_append, Option.map_or]
  change (binding.known? other).or _ = _
  by_cases same : other = handle
  · rw [same, unknown]
    simp
  · rw [if_neg same]
    simp [Ne.symm same]

theorem remembers_remember {type : HeapClass} (left : Remembers binding later) (other : handle ≠ 0)
    (reads : Reads binding.agent binding.known? handle type) :
    Remembers binding (later.remember handle type).2 ∧
      Reads binding.agent binding.known? handle (later.remember handle type).1 := by
  cases found : later.known? handle with
  | some held =>
      rw [remember_known found]
      exact ⟨left, left.read handle held other found⟩
  | none =>
      apply And.intro
      · constructor
        · rw [remember_new found]
          exact left.agent
        · intro low known before
          have same := left.kept low known before
          rw [known_new found]
          by_cases here : low = handle
          · rw [here, found] at same
            cases same
          · rw [if_neg here]
            exact same
        · intro low known positive now
          rw [known_new found] at now
          by_cases here : low = handle
          · rw [if_pos here] at now
            obtain rfl := Option.some.inj now
            exact here ▸ reads
          · rw [if_neg here] at now
            exact left.read low known positive now
      · rw [remember_new found]
        exact reads

theorem remembers_asked (binding : Binding) : Remembers binding binding.asked :=
  ⟨rfl, fun _ _ found => found, fun _ _ other found => .known other found⟩

structure Answers (binding later : Binding) (handle : Nat) (result : Except WalkerError HeapClass) : Prop where
  left : Remembers binding later
  reads : ∀ type, result = .ok type → Reads binding.agent binding.known? handle type

theorem answers_remember {type : HeapClass} (left : Remembers binding later) (other : handle ≠ 0)
    (reads : Reads binding.agent binding.known? handle type) :
    Answers binding (later.remember handle type).2 handle (.ok (later.remember handle type).1) := by
  obtain ⟨after, read⟩ := remembers_remember left other reads
  refine ⟨after, ?_⟩
  rintro _ ⟨⟩
  exact read

theorem remembers_of_asked (left : Remembers binding.asked later) : Remembers binding later :=
  ⟨left.agent, left.kept, left.read⟩

theorem looks_answers {result : Except WalkerError HeapClass} (looks : Looks binding handle result later) :
    Answers binding later handle result := by
  induction looks with
  | none => exact ⟨remembers_refl _, nofun⟩
  | known other found =>
      apply Answers.mk (remembers_refl _)
      rintro _ ⟨⟩
      exact .known other found
  | refused | odd => exact ⟨remembers_asked _, nofun⟩
  | plain unknown described => exact answers_remember (remembers_asked _) unknown.other (.plain unknown described)
  | failed _ _ _ inner => exact ⟨remembers_of_asked inner.left, nofun⟩
  | array unknown described _ inner =>
      exact answers_remember (remembers_of_asked inner.left) unknown.other (.array unknown described (inner.reads _ rfl))

theorem reads_later (left : Remembers binding later) {type : HeapClass}
    (reads : Reads binding.agent binding.known? handle type) :
    Reads later.agent later.known? handle type := by
  rw [left.agent]
  induction reads with
  | known other found => exact .known other (left.kept _ _ found)
  | @plain handle kind unknown described =>
      cases found : later.known? handle with
      | none => exact .plain ⟨unknown.other, found⟩ described
      | some held =>
          have same := reads_unique (left.read handle held unknown.other found) (.plain unknown described)
          exact .known unknown.other (found.trans (congrArg some same))
  | @array handle component unknown described inner ih =>
      cases found : later.known? handle with
      | none => exact .array ⟨unknown.other, found⟩ described ih
      | some held =>
          have same := reads_unique (left.read handle held unknown.other found) (.array unknown described inner)
          exact .known unknown.other (found.trans (congrArg some same))

theorem reads_before (left : Remembers binding later) {type : HeapClass}
    (reads : Reads later.agent later.known? handle type) :
    Reads binding.agent binding.known? handle type := by
  rw [left.agent] at reads
  induction reads with
  | known other found => exact left.read _ _ other found
  | @plain handle kind unknown described =>
      cases found : binding.known? handle with
      | none => exact .plain ⟨unknown.other, found⟩ described
      | some held => exact nomatch (left.kept _ _ found).symm.trans unknown.unknown
  | @array handle component unknown described inner ih =>
      cases found : binding.known? handle with
      | none => exact .array ⟨unknown.other, found⟩ described ih
      | some held => exact nomatch (left.kept _ _ found).symm.trans unknown.unknown

theorem remembers_trans {last : Binding} (first : Remembers binding later) (second : Remembers later last) :
    Remembers binding last where
  agent := second.agent.trans first.agent
  kept _ _ found := second.kept _ _ (first.kept _ _ found)
  read _ _ other found := reads_before first (second.read _ _ other found)

theorem looks_of_reads {known : Nat → Option HeapClass} {type : HeapClass} (reads : Reads agent known handle type)
    (spoken : binding.agent = agent) (same : binding.known? = known) :
    ∃ later, Looks binding handle (.ok type) later := by
  induction reads generalizing binding with
  | known other found => exact ⟨binding, .known other (same ▸ found)⟩
  | plain unknown described =>
      subst spoken same
      have looks := Looks.plain unknown described
      rw [remember_new ((asked_known binding).symm ▸ unknown.unknown)] at looks
      exact ⟨_, looks⟩
  | array unknown described inner ih =>
      subst spoken same
      obtain ⟨after, below⟩ := ih (asked_agent binding) (asked_known binding)
      have looks := Looks.array unknown described below
      have read := (looks_answers looks).reads _ rfl
      rw [reads_unique read (.array unknown described inner)] at looks
      exact ⟨_, looks⟩

/-- What a lookup answers, if it returns. -/
def answer? (binding : Binding) (handle : Nat) : Option (Except WalkerError HeapClass) :=
  (binding.lookup? handle).map Prod.fst

theorem answer_iff (binding : Binding) (handle : Nat) (result : Except WalkerError HeapClass) :
    binding.answer? handle = some result ↔ ∃ later, Looks binding handle result later := by
  constructor
  · intro answered
    obtain ⟨⟨_, later⟩, found, rfl⟩ := Option.map_eq_some_iff.mp answered
    exact ⟨later, looks_of_lookup found⟩
  · rintro ⟨later, looks⟩
    exact Option.map_eq_some_iff.mpr ⟨_, lookup_of_looks looks, rfl⟩

theorem answer_settled (settles : Settles binding handle) : ∃ result, binding.answer? handle = some result := by
  obtain ⟨result, looks⟩ := looks_of_settled settles rfl rfl
  exact ⟨result, (answer_iff binding handle result).mpr looks⟩

theorem lookup_answered {result : Except WalkerError HeapClass} (answered : binding.answer? handle = some result) :
    (binding.lookup handle).1 = result := by
  obtain ⟨done, found, rfl⟩ := Option.map_eq_some_iff.mp answered
  rw [lookup, found]
  rfl

theorem answer_ok_iff (binding : Binding) (handle : Nat) (type : HeapClass) :
    binding.answer? handle = some (.ok type) ↔ Reads binding.agent binding.known? handle type := by
  rw [answer_iff]
  constructor
  · rintro ⟨later, looks⟩
    exact (looks_answers looks).reads type rfl
  · exact fun reads => looks_of_reads reads rfl rfl

theorem lookup_remembers (binding : Binding) (handle : Nat) : Remembers binding (binding.lookup handle).2 := by
  cases found : binding.lookup? handle with
  | none =>
      rw [lookup, found]
      exact remembers_refl binding
  | some done =>
      rw [lookup, found]
      exact (looks_answers (looks_of_lookup found)).left

theorem unknown_later (left : Remembers binding later) (unknown : Unknown binding.known? handle)
    (unread : ∀ type, ¬ Reads binding.agent binding.known? handle type) : Unknown later.known? handle := by
  apply Unknown.mk unknown.other
  cases found : later.known? handle with
  | none => rfl
  | some type => exact absurd (left.read handle type unknown.other found) (unread type)

theorem looks_fail {error : WalkerError} {result : Except WalkerError HeapClass} {after : Binding}
    (looks : Looks binding handle result after) (fails : result = .error error) (left : Remembers binding later) :
    ∃ last, Looks later handle (.error error) last := by
  -- A lookup that fails fails again, for the same reason.
  have unread : ∀ type, ¬ Reads binding.agent binding.known? handle type := by
    intro type reads
    have answered := (answer_iff binding handle result).mpr ⟨after, looks⟩
    rw [(answer_ok_iff binding handle type).mpr reads] at answered
    cases (Option.some.inj answered).trans fails
  induction looks generalizing later with
  | none =>
      cases fails
      exact ⟨_, .none⟩
  | known | plain | array => cases fails
  | refused unknown status =>
      cases fails
      have again := Looks.refused (unknown_later left unknown unread) (left.agent ▸ status)
      exact ⟨_, left.agent ▸ again⟩
  | odd unknown status other odd =>
      cases fails
      have again := Looks.odd (unknown_later left unknown unread) (left.agent ▸ status) (left.agent ▸ other)
        (left.agent ▸ odd)
      exact ⟨_, left.agent ▸ again⟩
  | @failed binding _ _ _ unknown described _ ih =>
      cases fails
      have below : Remembers binding.asked later.asked := ⟨left.agent, left.kept, left.read⟩
      obtain ⟨last, inner⟩ := ih rfl below fun component reads => unread _ (.array unknown described reads)
      have array : DescribesArray later.agent _ := left.agent ▸ described
      exact ⟨last, .failed (unknown_later left unknown unread) array (left.agent ▸ inner)⟩

theorem answer_later {result : Except WalkerError HeapClass} (left : Remembers binding later)
    (answered : binding.answer? handle = some result) : later.answer? handle = some result := by
  cases result with
  | ok type => exact (answer_ok_iff later handle type).mpr (reads_later left ((answer_ok_iff binding handle type).mp answered))
  | error error =>
      obtain ⟨after, looks⟩ := (answer_iff binding handle _).mp answered
      exact (answer_iff later handle _).mpr (looks_fail looks rfl left)

theorem settles_before (left : Remembers binding later) (settles : Settles later handle) : Settles binding handle := by
  induction settles with
  | intro handle _ ih =>
      refine Acc.intro handle fun component leads => ?_
      cases found : later.known? handle with
      | none => exact ih component ⟨⟨leads.unknown.other, found⟩, left.agent ▸ leads.array, left.agent ▸ leads.leads⟩
      | some type =>
          have read := left.read handle type leads.unknown.other found
          obtain ⟨_, looks⟩ := looks_of_reads read rfl rfl
          exact (settles_of_looks looks).inv leads

theorem answer_stable (left : Remembers binding later) (handle : Nat) :
    later.answer? handle = binding.answer? handle := by
  -- Earlier lookups change no answer.
  cases before : binding.answer? handle with
  | some result => exact answer_later left before
  | none =>
      cases now : later.answer? handle with
      | none => rfl
      | some result =>
          obtain ⟨_, looks⟩ := (answer_iff later handle result).mp now
          obtain ⟨_, answered⟩ := answer_settled (settles_before left (settles_of_looks looks))
          cases before.symm.trans answered

end HeapCensus.Binding
