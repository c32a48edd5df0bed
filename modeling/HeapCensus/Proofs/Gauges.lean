import HeapCensus.Proofs.Sampling

set_option autoImplicit false

namespace HeapCensus

open Activity (Course)

variable {ω : Type}

def Ascending (gauges : List Gauge) : Prop := (gauges.map Gauge.name).Pairwise (· < ·)

theorem ascending_cons {gauge : Gauge} {gauges : List Gauge} :
    Ascending (gauge :: gauges) ↔ (∀ other ∈ gauges, gauge.name < other.name) ∧ Ascending gauges := by
  rw [Ascending, List.map_cons, List.pairwise_cons, List.forall_mem_map]
  exact Iff.rfl

theorem ascending_unique {gauges : List Gauge} (ascending : Ascending gauges) {first second : Gauge}
    (one : first ∈ gauges) (other : second ∈ gauges) (same : first.name = second.name) : first = second :=
  List.inj_on_of_nodup_map (ascending.imp ne_of_lt) one other same

theorem mem_put_self (gauge : Gauge) (gauges : List Gauge) : gauge ∈ putGauge gauge gauges := by
  induction gauges with
  | nil => exact List.mem_singleton_self gauge
  | cons first gauges ih =>
      by_cases before : gauge.name < first.name
      · rw [putGauge, if_pos before]
        exact List.mem_cons_self
      · by_cases same : gauge.name = first.name
        · rw [putGauge, if_neg before, if_pos same]
          exact List.mem_cons_self
        · rw [putGauge, if_neg before, if_neg same]
          exact List.mem_cons_of_mem first ih

theorem mem_put_other {gauge other : Gauge} (apart : other.name ≠ gauge.name) (gauges : List Gauge) :
    other ∈ putGauge gauge gauges ↔ other ∈ gauges := by
  have differs : other ≠ gauge := fun same => apart (congrArg Gauge.name same)
  induction gauges with
  | nil => simp [putGauge, differs]
  | cons first gauges ih =>
      by_cases before : gauge.name < first.name
      · rw [putGauge, if_pos before, List.mem_cons, or_iff_right differs]
      · by_cases same : gauge.name = first.name
        · have behind : other ≠ first := fun here => apart (same ▸ congrArg Gauge.name here)
          rw [putGauge, if_neg before, if_pos same, List.mem_cons, List.mem_cons, or_iff_right differs,
            or_iff_right behind]
        · rw [putGauge, if_neg before, if_neg same, List.mem_cons, List.mem_cons]
          exact or_congr_right ih

theorem ascending_put (gauge : Gauge) {gauges : List Gauge} (ascending : Ascending gauges) :
    Ascending (putGauge gauge gauges) := by
  induction gauges with
  | nil => exact List.pairwise_singleton _ _
  | cons first gauges ih =>
      obtain ⟨above, others⟩ := ascending_cons.mp ascending
      by_cases before : gauge.name < first.name
      · rw [putGauge, if_pos before]
        refine ascending_cons.mpr ⟨List.forall_mem_cons.mpr ⟨before, fun other member => ?_⟩, ascending⟩
        exact lt_trans before (above other member)
      · by_cases same : gauge.name = first.name
        · rw [putGauge, if_neg before, if_pos same]
          exact ascending_cons.mpr ⟨same ▸ above, others⟩
        · rw [putGauge, if_neg before, if_neg same]
          refine ascending_cons.mpr ⟨fun other member => ?_, ih others⟩
          by_cases named : other.name = gauge.name
          · rw [named]
            exact lt_of_le_of_ne (not_lt.mp before) (Ne.symm same)
          · exact above other ((mem_put_other named gauges).mp member)

namespace Watch

variable {walker : Walker ω} {watch : Watch} {history samples : List (Sample ω)} {sample : Sample ω} {gauge : Gauge}

def latest (name : String) (history : List (Sample ω)) : Option Gauge :=
  ((history.filter fun sample => sample.name = name).filterMap Sample.gauge?).getLast?

theorem latest_failed (failed : sample.gauge? = none) (name : String) :
    latest name (history ++ [sample]) = latest name history := by
  by_cases same : sample.name = name <;> simp [latest, same, failed]

theorem latest_other {name : String} (apart : sample.name ≠ name) :
    latest name (history ++ [sample]) = latest name history := by
  simp [latest, apart]

theorem latest_gauged (gauged : sample.gauge? = some gauge) :
    latest sample.name (history ++ [sample]) = some gauge := by
  simp [latest, gauged]

theorem latest_found {name : String} (found : latest name history = some gauge) :
    ∃ sample ∈ history, sample.name = name ∧ sample.gauge? = some gauge := by
  obtain ⟨sample, kept, gauged⟩ := List.mem_filterMap.mp (List.mem_of_getLast? found)
  obtain ⟨member, same⟩ := List.mem_filter.mp kept
  exact ⟨sample, member, of_decide_eq_true same, gauged⟩

theorem latest_none_iff {name : String} :
    latest name history = none ↔ ∀ sample ∈ history, sample.name = name → sample.gauge? = none := by
  simp [latest]

/-- What the gauges are after a history. -/
structure Keeps (history : List (Sample ω)) (watch : Watch) : Prop where
  ascending : Ascending watch.gauges
  latest : ∀ gauge, gauge ∈ watch.gauges ↔ latest gauge.name history = some gauge
  named : ∀ sample ∈ history, ∀ gauge, sample.gauge? = some gauge → gauge.name = sample.name

theorem keeps_new (settings : WatchSettings) : Keeps ([] : List (Sample ω)) (new settings) where
  ascending := List.Pairwise.nil
  latest := fun _ => iff_of_false List.not_mem_nil nofun
  named := nofun

theorem keeps_failed (keeps : Keeps history watch) (failed : sample.gauge? = none) :
    Keeps (history ++ [sample]) watch where
  ascending := keeps.ascending
  latest := fun gauge => by rw [latest_failed failed, keeps.latest]
  named := by
    refine List.forall_mem_append.mpr ⟨keeps.named, List.forall_mem_singleton.mpr fun gauge gauged => ?_⟩
    exact absurd (failed.symm.trans gauged) nofun

theorem keeps_gauged (keeps : Keeps history watch) (gauged : sample.gauge? = some gauge)
    (named : gauge.name = sample.name) : Keeps (history ++ [sample]) (watch.put gauge) where
  ascending := ascending_put gauge keeps.ascending
  latest := by
    intro other
    by_cases same : other.name = gauge.name
    · rw [same, named, latest_gauged gauged, Option.some.injEq]
      constructor
      · intro member
        exact ascending_unique (ascending_put gauge keeps.ascending) (mem_put_self gauge _) member same.symm
      · rintro rfl
        exact mem_put_self gauge _
    · rw [latest_other (fun here => same (here.symm.trans named.symm)), ← keeps.latest]
      exact mem_put_other same watch.gauges
  named := by
    refine List.forall_mem_append.mpr ⟨keeps.named, List.forall_mem_singleton.mpr fun other given => ?_⟩
    obtain rfl := Option.some.inj (gauged.symm.trans given)
    exact named

theorem keeps_samples (keeps : Keeps history watch)
    (named : ∀ sample ∈ samples, ∀ gauge, sample.gauge? = some gauge → gauge.name = sample.name) :
    Keeps (history ++ samples) ((gaugesOf samples).foldl put watch) := by
  induction samples generalizing history watch with
  | nil =>
      rw [List.append_nil]
      exact keeps
  | cons sample samples ih =>
      obtain ⟨here, others⟩ := List.forall_mem_cons.mp named
      rw [List.append_cons]
      cases gauged : sample.gauge? with
      | none =>
          rw [gaugesOf, List.filterMap_cons_none gauged]
          exact ih (keeps_failed keeps gauged) others
      | some gauge =>
          rw [gaugesOf, List.filterMap_cons_some gauged, List.foldl_cons]
          exact ih (keeps_gauged keeps gauged (here gauge gauged)) others

theorem keeps_names (keeps : Keeps history watch) (name : String) :
    name ∈ watch.gauges.map Gauge.name ↔ ∃ sample ∈ history, sample.name = name ∧ sample.gauge? ≠ none := by
  constructor
  · intro member
    obtain ⟨gauge, present, rfl⟩ := List.mem_map.mp member
    obtain ⟨sample, within, same, gauged⟩ := latest_found ((keeps.latest gauge).mp present)
    exact ⟨sample, within, same, gauged ▸ Option.some_ne_none gauge⟩
  · rintro ⟨sample, within, rfl, gauged⟩
    have some : latest sample.name history ≠ none := fun none => gauged (latest_none_iff.mp none sample within rfl)
    obtain ⟨gauge, newest⟩ := Option.ne_none_iff_exists'.mp some
    obtain ⟨other, member, same, given⟩ := latest_found newest
    have called : gauge.name = sample.name := (keeps.named other member gauge given).trans same
    exact List.mem_map.mpr ⟨gauge, (keeps.latest gauge).mpr (called ▸ newest), called⟩

theorem put_all_settings (gauges : List Gauge) (watch : Watch) :
    (gauges.foldl put watch).settings = watch.settings := by
  induction gauges generalizing watch with
  | nil => rfl
  | cons gauge gauges ih => exact ih (watch.put gauge)

theorem mem_put_all {gauges : List Gauge} {other : Gauge} (apart : ∀ gauge ∈ gauges, other.name ≠ gauge.name)
    (watch : Watch) : other ∈ (gauges.foldl put watch).gauges ↔ other ∈ watch.gauges := by
  induction gauges generalizing watch with
  | nil => rfl
  | cons gauge gauges ih =>
      obtain ⟨here, others⟩ := List.forall_mem_cons.mp apart
      exact (ih others (watch.put gauge)).trans (mem_put_other here watch.gauges)

theorem sampled_named {name : String} {steps : List (Session ω × Session ω)}
    (sampled : Query.Sampled walker name steps (some gauge)) : gauge.name = name := by
  cases sampled with
  | counted => rfl

/-- A call of the watch, with the steps of the session that are its own. -/
structure Call (ω : Type) where
  before : Watch
  steps : List (Session ω × Session ω)
  answer : Except Panic Nat
  after : Watch

/-- One call after the other. Whatever happens to the session happens between their steps. -/
inductive Calls (walker : Walker ω) : Watch → List (Call ω) → Watch → Prop
  | none (watch : Watch) : Calls walker watch [] watch
  | next {call : Call ω} {calls : List (Call ω)} {last : Watch} :
      Course (call.before.sampleOnce walker) call.steps (call.answer, call.after) →
      Calls walker call.after calls last → Calls walker call.before (call :: calls) last

structure Answers (walker : Walker ω) (names : List String) (call : Call ω) (samples : List (Sample ω)) : Prop where
  round : Round walker names call.steps call.before (call.answer, call.after) samples
  untouched : ∀ gauge, (∀ sample ∈ samples, sample.name = gauge.name → sample.gauge? = none) →
    (gauge ∈ call.after.gauges ↔ gauge ∈ call.before.gauges)

theorem answers_round {names : List String} {call : Call ω}
    (round : Round walker names call.steps call.before (call.answer, call.after) samples) :
    Answers walker names call samples where
  round := round
  untouched := by
    intro gauge failed
    have same : call.after = (gaugesOf samples).foldl put call.before := round.after
    rw [same]
    refine mem_put_all (fun other member named => ?_) call.before
    obtain ⟨sample, within, gauged⟩ := List.mem_filterMap.mp member
    have called := sampled_named (gauged ▸ round.sampled sample within)
    exact Option.some_ne_none other (gauged ▸ failed sample within (called.symm.trans named.symm))

theorem calls_keep {first last : Watch} {calls : List (Call ω)} (run : Calls walker first calls last)
    (keeps : Keeps history first) (calm : ∀ call ∈ calls, ∀ step ∈ call.steps, walker.Calm step.1.world)
    (room : ∀ call ∈ calls, ∀ step ∈ call.steps, step.1.Roomy) :
    ∃ rounds : List (List (Sample ω)), List.Forall₂ (Answers walker first.settings.names) calls rounds ∧
      Keeps (history ++ rounds.flatten) last ∧ last.settings = first.settings := by
  induction run generalizing history with
  | none watch =>
      refine ⟨[], .nil, ?_, rfl⟩
      rw [List.flatten_nil, List.append_nil]
      exact keeps
  | @next call calls last course _ ih =>
      obtain ⟨calmly, calms⟩ := List.forall_mem_cons.mp calm
      obtain ⟨roomy, rooms⟩ := List.forall_mem_cons.mp room
      obtain ⟨samples, round⟩ := sample_names_course course calmly roomy
      have after : call.after = (gaugesOf samples).foldl put call.before := round.after
      have kept := keeps_samples keeps fun sample member gauge gauged =>
        sampled_named (gauged ▸ round.sampled sample member)
      rw [← after] at kept
      obtain ⟨others, answers, told, settings⟩ := ih kept calms rooms
      have same : call.after.settings = call.before.settings := by rw [after, put_all_settings]
      rw [same] at answers settings
      rw [List.append_assoc] at told
      exact ⟨samples :: others, .cons (answers_round round) answers, told, settings⟩

theorem gauges_tell_latest_samplings (walker : Walker ω) (settings : WatchSettings) (calls : List (Call ω))
    (last : Watch) (run : Calls walker (new settings) calls last)
    (calm : ∀ call ∈ calls, ∀ step ∈ call.steps, walker.Calm step.1.world)
    (room : ∀ call ∈ calls, ∀ step ∈ call.steps, step.1.Roomy) :
    ∃ rounds : List (List (Sample ω)), List.Forall₂ (Answers walker settings.names) calls rounds ∧
      Keeps rounds.flatten last ∧
      ∀ name, name ∈ last.gauges.map Gauge.name ↔
        ∃ sample ∈ rounds.flatten, sample.name = name ∧ sample.gauge? ≠ none := by
  obtain ⟨rounds, answers, keeps, _⟩ := calls_keep run (keeps_new settings) calm room
  rw [List.nil_append] at keeps
  exact ⟨rounds, answers, keeps, keeps_names keeps⟩

def Call.alone (walker : Walker ω) (watch : Watch) (session : Session ω) : Call ω where
  before := watch
  steps := Activity.alone (watch.sampleOnce walker) session
  answer := (Activity.run (watch.sampleOnce walker) session).1.1
  after := (Activity.run (watch.sampleOnce walker) session).1.2

theorem calls_alone (walker : Walker ω) (watch : Watch) (session : Session ω) {calls : List (Call ω)} {last : Watch}
    (later : Calls walker (Call.alone walker watch session).after calls last) :
    Calls walker watch (Call.alone walker watch session :: calls) last :=
  .next (Activity.course_alone (watch.sampleOnce walker) session) later

def Scripted (rehearsal : Rehearsal SyntheticHeap) : Bool :=
  rehearsal.script.loadClass.isNone && rehearsal.script.arrayClass.isNone &&
    rehearsal.script.classLoaderClass.isNone && rehearsal.script.instancesAny.isNone

theorem answer_calm {α : Type} {written : Script → Option (Outcome WalkerError α)} {walk : Walk SyntheticHeap α}
    {rehearsal : Rehearsal SyntheticHeap} (unwritten : (written rehearsal.script).isNone = true)
    (calm : walk.Calm rehearsal.inner) : (Rehearsal.answer written walk).Calm rehearsal := by
  have same : (Rehearsal.answer written walk).call rehearsal =
      ((walk.call rehearsal.inner).1, rehearsal.setInner (walk.call rehearsal.inner).2) := by
    unfold Rehearsal.answer
    simp only [Walk.call, ExceptT.run, ExceptT.mk, StateT.run, Option.isNone_iff_eq_none.mp unwritten]
    rfl
  rw [Walk.Calm, same]
  exact calm

theorem calm_heap (heap : SyntheticHeap) : SyntheticHeap.walker.Calm heap := by
  constructor
  · intro loader name
    change ¬ Outcome.Panics (Outcome.ofExcept (heap.load loader name))
    cases heap.load loader name <;> exact nofun
  · exact fun component => nofun
  · exact nofun
  · exact fun type tag bound => nofun

theorem calm_scripted {rehearsal : Rehearsal SyntheticHeap} (scripted : Scripted rehearsal = true) :
    (Rehearsal.walker SyntheticHeap.walker).Calm rehearsal := by
  simp only [Scripted, Bool.and_eq_true] at scripted
  obtain ⟨⟨⟨loads, arrays⟩, loaders⟩, lists⟩ := scripted
  have calm := calm_heap rehearsal.inner
  constructor
  · exact fun loader name => answer_calm loads (calm.loads loader name)
  · exact fun component => answer_calm arrays (calm.arrays component)
  · exact answer_calm loaders calm.loaders
  · exact fun type tag bound => answer_calm lists (calm.lists type tag bound)

def Call.told (call : Call (Rehearsal SyntheticHeap)) : Except Panic Nat × Watch × Bool × Bool :=
  (call.answer, call.after, call.steps.all fun step => Scripted step.1.world, call.steps.all fun step => step.1.Roomy)

def listing : WatchSettings := { WatchSettings.standard with names := ["Base", "Other", " Base"] }

def playing (capacity : Nat) (machine : Machine) (steps : Option (List OfferStep)) :
    Session (Rehearsal SyntheticHeap) :=
  ⟨Query.buffered capacity machine, ⟨Query.drawnHeap, { enumerate := steps }⟩⟩

def listed : Watch := { new listing with gauges := [⟨" Base", 2, 1, 0, 0⟩, ⟨"Base", 2, 1, 0, 0⟩] }

def firstCall : Call (Rehearsal SyntheticHeap) :=
  .alone (Rehearsal.walker SyntheticHeap.walker) (new listing) (playing 1 .ample none)

def secondCall : Call (Rehearsal SyntheticHeap) :=
  .alone (Rehearsal.walker SyntheticHeap.walker) listed
    (playing 1 .ample (some [⟨.push (some ⟨⟨7⟩, Query.drawn⟩), 1⟩, ⟨.fail "slot 4", 1⟩]))

def vastCall : Call (Rehearsal SyntheticHeap) :=
  .alone (Rehearsal.walker SyntheticHeap.walker) (new listing) (playing (2 ^ 58) (.cramped (2 ^ 58)) none)

set_option maxRecDepth 20000 in
theorem first_told : firstCall.told = (.ok 2, listed, true, true) := by cbv

set_option maxRecDepth 20000 in
theorem second_told : secondCall.told = (.ok 0, listed, true, true) := by cbv

set_option maxRecDepth 20000 in
theorem vast_told : vastCall.told = (.error .noRoom, new listing, true, false) := by cbv

theorem told_calm {call : Call (Rehearsal SyntheticHeap)} {answer : Except Panic Nat} {after : Watch} {roomy : Bool}
    (told : call.told = (answer, after, true, roomy)) :
    ∀ step ∈ call.steps, (Rehearsal.walker SyntheticHeap.walker).Calm step.1.world := by
  have scripted : (call.steps.all fun step => Scripted step.1.world) = true := congrArg (·.2.2.1) told
  exact fun step member => calm_scripted (List.all_eq_true.mp scripted step member)

theorem told_roomy {call : Call (Rehearsal SyntheticHeap)} {answer : Except Panic Nat} {after : Watch} {scripted : Bool}
    (told : call.told = (answer, after, scripted, true)) : ∀ step ∈ call.steps, step.1.Roomy := by
  have roomy : (call.steps.all fun step => step.1.Roomy) = true := congrArg (·.2.2.2) told
  exact fun step member => of_decide_eq_true (List.all_eq_true.mp roomy step member)

theorem failed_round_keeps_gauges :
    let walker := Rehearsal.walker SyntheticHeap.walker
    Calls walker (new listing) [firstCall, secondCall] listed ∧
      (∀ call ∈ [firstCall, secondCall], ∀ step ∈ call.steps, walker.Calm step.1.world) ∧
      (∀ call ∈ [firstCall, secondCall], ∀ step ∈ call.steps, step.1.Roomy) ∧
      firstCall.answer = .ok 2 ∧ secondCall.answer = .ok 0 ∧
      ∃ rounds : List (List (Sample (Rehearsal SyntheticHeap))),
        List.Forall₂ (Answers walker listing.names) [firstCall, secondCall] rounds ∧ Keeps rounds.flatten listed := by
  intro walker
  have first : firstCall.after = listed := congrArg (·.2.1) first_told
  have second : secondCall.after = listed := congrArg (·.2.1) second_told
  have ended : Calls walker secondCall.after [] listed := by
    rw [second]
    exact .none listed
  have later : Calls walker firstCall.after [secondCall] listed := by
    rw [first]
    exact calls_alone walker listed _ ended
  have run : Calls walker (new listing) [firstCall, secondCall] listed := calls_alone walker (new listing) _ later
  have calm : ∀ call ∈ [firstCall, secondCall], ∀ step ∈ call.steps, walker.Calm step.1.world :=
    List.forall_mem_cons.mpr ⟨told_calm first_told, List.forall_mem_singleton.mpr (told_calm second_told)⟩
  have room : ∀ call ∈ [firstCall, secondCall], ∀ step ∈ call.steps, step.1.Roomy :=
    List.forall_mem_cons.mpr ⟨told_roomy first_told, List.forall_mem_singleton.mpr (told_roomy second_told)⟩
  obtain ⟨rounds, answers, keeps, _⟩ := gauges_tell_latest_samplings walker listing _ _ run calm room
  exact ⟨run, calm, room, congrArg (·.1) first_told, congrArg (·.1) second_told, rounds, answers, keeps⟩

/-- No stream has a buffer of so many slots, and the call gives no number. The walker is calm all the time.
-/
theorem vast_call_gives_no_number :
    let walker := Rehearsal.walker SyntheticHeap.walker
    Calls walker (new listing) [vastCall] vastCall.after ∧
      (∀ step ∈ vastCall.steps, walker.Calm step.1.world) ∧ vastCall.answer = .error .noRoom ∧
      ∀ samples, ¬ Answers walker listing.names vastCall samples := by
  intro walker
  have panicked : vastCall.answer = .error .noRoom := congrArg (·.1) vast_told
  refine ⟨calls_alone walker _ _ (.none _), told_calm vast_told, panicked, fun samples answers => ?_⟩
  cases panicked.symm.trans answers.round.answer

end Watch

end HeapCensus
