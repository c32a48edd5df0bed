import HeapCensus.Proofs.Counting
import HeapCensus.Proofs.Ranking
import HeapCensus.Proofs.Resolving

set_option autoImplicit false

namespace HeapCensus

theorem sum_add_count {α : Type} (measure : α → Nat) (holds : α → Bool) (items : List α) :
    (items.map fun item => measure item + if holds item then 1 else 0).sum =
      (items.map measure).sum + items.countP holds := by
  induction items with
  | nil => rfl
  | cons item items ih =>
      simp only [List.map_cons, List.sum_cons, List.countP_cons, ih]
      omega

theorem sum_count_swap {α β : Type} (related : β → α → Bool) (kinds : List β) (items : List α) :
    (kinds.map fun kind => items.countP (related kind)).sum =
      (items.map fun item => kinds.countP fun kind => related kind item).sum := by
  induction kinds with
  | nil => simp
  | cons kind kinds ih =>
      simp only [List.map_cons, List.sum_cons, List.countP_cons, ih]
      rw [sum_add_count]
      exact Nat.add_comm _ _

theorem count_le_sum {α : Type} (measure : α → Nat) (items : List α) :
    items.countP (fun item => 0 < measure item) ≤ (items.map measure).sum := by
  induction items with
  | nil => exact Nat.le_refl 0
  | cons item items ih =>
      rw [List.map_cons, List.sum_cons, List.countP_cons]
      by_cases positive : 0 < measure item
      · simp only [positive, decide_true, if_true]
        omega
      · simp only [positive, decide_false, Bool.false_eq_true, if_false]
        omega

theorem sum_eq_count_iff {α : Type} (measure : α → Nat) (items : List α) :
    (items.map measure).sum = items.countP (fun item => 0 < measure item) ↔
      ∀ item ∈ items, measure item ≤ 1 := by
  induction items with
  | nil => simp
  | cons item items ih =>
      have least := count_le_sum measure items
      rw [List.map_cons, List.sum_cons, List.countP_cons, List.forall_mem_cons]
      refine Iff.trans ?_ (and_congr_right' ih)
      by_cases positive : 0 < measure item
      · simp only [positive, decide_true, if_true]
        omega
      · simp only [positive, decide_false, Bool.false_eq_true, if_false]
        omega

namespace SyntheticHeap

def rootsAbove (heap : SyntheticHeap) (types : List HeapClass) (object : HeapObject) : Nat :=
  types.countP (heap.isSubtype object.type)

def Separate (heap : SyntheticHeap) (types : List HeapClass) : Prop :=
  ∀ object ∈ heap.objects, heap.rootsAbove types object ≤ 1

def covered (heap : SyntheticHeap) (types : List HeapClass) : List HeapObject :=
  heap.objects.filter fun object => types.any (heap.isSubtype object.type)

theorem count_covered (heap : SyntheticHeap) (types : List HeapClass) (holds : HeapObject → Bool) :
    (heap.covered types).countP holds =
      (heap.objects.filter holds).countP fun object => 0 < heap.rootsAbove types object := by
  have positive : ∀ object : HeapObject, types.any (heap.isSubtype object.type) =
      decide (0 < heap.rootsAbove types object) := by
    intro object
    rw [rootsAbove, Bool.eq_iff_iff, List.any_eq_true, decide_eq_true_iff, List.countP_pos_iff]
  simp only [covered, positive, List.countP_filter, Bool.and_comm]

theorem sum_below (heap : SyntheticHeap) (types : List HeapClass) (holds : HeapObject → Bool) :
    (types.map fun type => (heap.below type).countP holds).sum =
      ((heap.objects.filter holds).map (heap.rootsAbove types)).sum := by
  have swapped := sum_count_swap (fun type object => heap.isSubtype object.type type) types
    (heap.objects.filter holds)
  simp only [List.countP_filter, below] at swapped ⊢
  simp only [Bool.and_comm] at swapped ⊢
  exact swapped

theorem sum_eq_covered_iff (heap : SyntheticHeap) (types : List HeapClass) (holds : HeapObject → Bool) :
    (types.map fun type => (heap.below type).countP holds).sum = (heap.covered types).countP holds ↔
      ∀ object ∈ heap.objects, holds object = true → heap.rootsAbove types object ≤ 1 := by
  -- Sums and numbers of objects agree for every selection when the types are separate, and for no
  -- selection that has an object below two of them.
  rw [sum_below, count_covered, sum_eq_count_iff]
  simp [List.mem_filter]

end SyntheticHeap

namespace Query

open Registry

variable {session found : Session SyntheticHeap} {heap : SyntheticHeap} {types : List HeapClass}

theorem sum_over_any (types : List HeapClass) (alike : SyntheticHeap.Alike heap session.world) :
    ∃ after, (sumOver (countAny SyntheticHeap.walker · 0) types).perform session =
        (.ok (types.map fun type => (heap.any type unbounded).length).sum, after) ∧
      SyntheticHeap.Alike heap after.world := by
  induction types generalizing session with
  | nil => exact ⟨session, rfl, alike⟩
  | cons type types ih =>
      have whole : normalizeBound 0 = .ok unbounded := rfl
      obtain ⟨count, between, counted, same, later⟩ := count_any_performed whole alike
      obtain ⟨after, summed, last⟩ := ih later
      refine ⟨after, ?_, last⟩
      rw [sumOver, perform_ok counted, perform_ok summed, List.map_cons, List.sum_cons, ← same]
      rfl

theorem resolve_some_perform {name : String}
    (resolved : (resolve SyntheticHeap.walker name).perform session = (.ok types, found))
    (nonempty : types ≠ []) :
    (resolveSome SyntheticHeap.walker name).perform session = (.ok types, found) := by
  rw [resolveSome, perform_ok resolved]
  cases types with
  | nil => exact absurd rfl nonempty
  | cons type types => rfl

theorem count_of_any_perform {name : String}
    (resolved : (resolve SyntheticHeap.walker name).perform session = (.ok types, found))
    (nonempty : types ≠ []) :
    ∃ after, (countOfAny SyntheticHeap.walker name).perform session =
        (.ok ⟨shownName name, (types.map fun type => (found.world.any type unbounded).length).sum, types.length⟩,
          after) ∧ SyntheticHeap.Alike found.world after.world := by
  have alike : SyntheticHeap.Alike found.world found.world := ⟨rfl, rfl⟩
  obtain ⟨after, summed, later⟩ := sum_over_any types alike
  refine ⟨after, ?_, later⟩
  rw [countOfAny, perform_ok (resolve_some_perform resolved nonempty), perform_ok summed]
  rfl

theorem count_of_any_sum {name : String}
    (resolved : (resolve SyntheticHeap.walker name).perform session = (.ok types, found))
    (nonempty : types ≠ []) (few : found.world.objects.length < UInt32.size) :
    ∃ after, (countOfAny SyntheticHeap.walker name).perform session =
      (.ok ⟨shownName name, (types.map fun type => (found.world.below type).length).sum, types.length⟩, after) := by
  obtain ⟨after, counted, _⟩ := count_of_any_perform resolved nonempty
  simp only [SyntheticHeap.any_unbounded found.world _ few] at counted
  exact ⟨after, counted⟩

theorem all_ok {outcomes : List (Outcome QueryError ScanReport)} {right : HeapClass → ScanReport → Prop}
    (each : List.Forall₂ (fun type outcome => ∃ report, outcome = .ok report ∧ right type report)
      types outcomes) :
    ∃ reports, outcomes.mapM id = .ok reports ∧ List.Forall₂ right types reports := by
  induction each with
  | nil => exact ⟨[], rfl, .nil⟩
  | cons first rest ih =>
      obtain ⟨report, rfl, covers⟩ := first
      obtain ⟨reports, collected, others⟩ := ih
      refine ⟨report :: reports, ?_, .cons covers others⟩
      rw [List.mapM_cons, collected]
      rfl

theorem scan_all_lists (session : Session SyntheticHeap) (types : List HeapClass) {amount : Nat}
    (issued : Issued amount session.census.registry) (room : amount + types.length < UInt64.size) :
    ∃ reports after, (scanAll SyntheticHeap.walker types).perform session = (.ok reports, after) ∧
      List.Forall₂ (Lists session.world) types reports ∧ SyntheticHeap.Alike session.world after.world := by
  let scan : HeapClass → Activity (Session SyntheticHeap) (Outcome QueryError ScanReport) :=
    fun type => (cardinality SyntheticHeap.walker type 0).run
  let finished := Activity.run (Activity.interleave session.census.turns (types.map scan)) session
  have start : Sharing session.census.registry (SyntheticHeap.Alike session.world) session
      (types.map fun _ => ⟨1, none, 0⟩) := by
    refine ⟨shared_start _ _ amount issued ?_ ?_, rfl, rfl⟩
    · simpa [List.map_const'] using room
    · intro share member
      obtain ⟨type, _, rfl⟩ := List.mem_map.mp member
      exact ⟨rfl, rfl⟩
  obtain ⟨ends, sharing, results, ended⟩ := Activity.interleave_each types scan _ _
    (keeps_cardinality session.world) session.census.turns session start
  have each : List.Forall₂ (fun type outcome => ∃ report, outcome = .ok report ∧ Lists session.world type report)
      types finished.1 := by
    change List.Forall₂ _ types (Activity.run _ session).1
    rw [results, List.forall₂_map_right_iff]
    refine ended.imp fun type reached done => ?_
    obtain ⟨report, delivered, _, lists⟩ := done
    exact ⟨report, delivered, lists⟩
  obtain ⟨reports, collected, lists⟩ := all_ok each
  refine ⟨reports, finished.2, ?_, lists, sharing.world⟩
  have looked : (look (·.census.turns) : Query SyntheticHeap _).perform session =
      (.ok session.census.turns, session) := rfl
  rw [scanAll, perform_ok looked, perform_ok (perform_lift _ session), ← collected]
  rfl

theorem scan_all_covers (session : Session SyntheticHeap) (types : List HeapClass) {amount : Nat}
    (issued : Issued amount session.census.registry) (room : amount + types.length < UInt64.size)
    (few : session.world.objects.length < UInt32.size) :
    ∃ reports after, (scanAll SyntheticHeap.walker types).perform session = (.ok reports, after) ∧
      List.Forall₂ (Covers session.world) types reports := by
  obtain ⟨reports, after, scanned, lists, _⟩ := scan_all_lists session types issued room
  exact ⟨reports, after, scanned, lists.imp fun _ _ => covers_of_lists few⟩

theorem top_instances_perform {name : String} {rows : Nat} {withoutPrimitives : Bool}
    {reports : List ScanReport} {after : Session SyntheticHeap} (positive : rows ≠ 0)
    (resolved : (resolve SyntheticHeap.walker name).perform session = (.ok types, found))
    (nonempty : types ≠ [])
    (scanned : (scanAll SyntheticHeap.walker types).perform found = (.ok reports, after)) :
    (topInstances SyntheticHeap.walker name rows withoutPrimitives).perform session =
      (((Ranking.topMerged (reports.map (·.tally)) rows withoutPrimitives).mapError QueryError.ofRanking).map
        fun entries =>
          { name := shownName name
            entries := entries
            roots := types.length
            elapsed := after.census.clock - session.census.clock
            faults := reports.flatMap (·.faults) }, after) := by
  have looked : (look (·.census.clock) : Query SyntheticHeap Nat).perform session =
      (.ok session.census.clock, session) := rfl
  rw [topInstances, if_neg positive, perform_ok looked,
    perform_ok (resolve_some_perform resolved nonempty), perform_ok scanned, perform_bind]
  cases Ranking.topMerged (reports.map (·.tally)) rows withoutPrimitives with
  | ok entries => rfl
  | error failure =>
      cases failure with
      | error cause => rfl
      | panic payload => rfl

theorem merged_sum {reports : List ScanReport} (covers : List.Forall₂ (Covers heap) types reports)
    (coherent : Tally.Coherent heap.objects) (name : String) :
    sumOfNamed name (Ranking.admitted false (reports.map (·.tally))) =
      (types.map fun type => (heap.below type).countP fun object => object.type.canonicalName = name).sum := by
  rw [Ranking.admitted_all]
  induction covers with
  | nil => rfl
  | cons first rest ih =>
      obtain ⟨order, same, tally⟩ := first
      have within : ∀ object ∈ order, object ∈ heap.objects := fun object member =>
        (List.mem_filter.mp (same.mem_iff.mp member)).1
      have ordered : Tally.Coherent order := fun one held other present =>
        coherent one (within one held) other (within other present)
      have counted := Tally.sum_of_name_of_objects order ordered name
      rw [List.map_cons, List.flatMap_cons, sum_of_named_append, ih, List.map_cons, List.sum_cons,
        ← same.countP_eq, ← counted, tally]
      rfl

theorem unnamed_sum {name : String} (rows : List TallyRow)
    (absent : ∀ row ∈ rows, row.1.canonicalName ≠ name) : sumOfNamed name rows = 0 := by
  have nothing : rows.filter (fun row => row.1.canonicalName = name) = [] := by
    refine List.filter_eq_nil_iff.mpr fun row member => ?_
    simpa using absent row member
  rw [sumOfNamed, nothing]
  rfl

/-- Each object below the types counts once. -/
def CountsOnce (session : Session SyntheticHeap) (name : String) (heap : SyntheticHeap)
    (types : List HeapClass) : Prop :=
  ∃ report after, (countOfAny SyntheticHeap.walker name).perform session = (.ok report, after) ∧
    report.count = (heap.covered types).length

def RanksOnce (session : Session SyntheticHeap) (name : String) (heap : SyntheticHeap)
    (types : List HeapClass) : Prop :=
  ∀ rows, rows ≠ 0 →
    ∃ report after,
      (topInstances SyntheticHeap.walker name rows false).perform session = (.ok report, after) ∧
        ∀ row ∈ report.entries,
          row.count = (heap.covered types).countP fun object => object.type.canonicalName = row.key

theorem counts_once_iff {name : String}
    (resolved : (resolve SyntheticHeap.walker name).perform session = (.ok types, found))
    (nonempty : types ≠ []) (few : found.world.objects.length < UInt32.size) :
    CountsOnce session name found.world types ↔ found.world.Separate types := by
  obtain ⟨after, counted⟩ := count_of_any_sum resolved nonempty few
  have whole := SyntheticHeap.sum_eq_covered_iff found.world types fun _ => true
  simp only [List.countP_true, forall_const] at whole
  refine Iff.trans ?_ whole
  constructor
  · rintro ⟨report, other, performed, same⟩
    rw [counted] at performed
    obtain ⟨outcome, _⟩ := Prod.mk.inj performed
    obtain rfl := Except.ok.inj outcome
    exact same
  · exact fun same => ⟨_, after, counted, same⟩

theorem sum_of_right_rows {reports : List ScanReport} {rows : Nat} {ranked : List (Ranked String)}
    (covers : List.Forall₂ (Covers heap) types reports) (coherent : Tally.Coherent heap.objects)
    (merged : Ranking.topMerged (reports.map (·.tally)) rows false = .ok ranked)
    (enough : (Ranking.admitted false (reports.map (·.tally))).length ≤ rows)
    (right : ∀ row ∈ ranked,
      row.count = (heap.covered types).countP fun object => object.type.canonicalName = row.key)
    (name : String) :
    (types.map fun type => (heap.below type).countP fun object => object.type.canonicalName = name).sum =
      (heap.covered types).countP fun object => object.type.canonicalName = name := by
  have sums := merged_sum covers coherent name
  by_cases present : ∃ row ∈ Ranking.admitted false (reports.map (·.tally)), row.1.canonicalName = name
  · obtain ⟨counted, held, same⟩ := present
    obtain ⟨row, shown, key⟩ := Ranking.top_merged_whole merged enough held
    have count := right row shown
    rw [Ranking.top_merged_counts merged shown, key, same] at count
    exact sums.symm.trans count
  -- A name without a row has no instances, and the sum is 0 on both sides.
  · have nothing := unnamed_sum _ fun row held same => present ⟨row, held, same⟩
    have fewest := count_le_sum (heap.rootsAbove types)
      (heap.objects.filter fun object => object.type.canonicalName = name)
    rw [sums, SyntheticHeap.sum_below] at nothing
    rw [SyntheticHeap.sum_below, SyntheticHeap.count_covered]
    omega

theorem covered_fits (types : List HeapClass) (few : heap.objects.length < UInt32.size)
    (holds : HeapObject → Bool) : (heap.covered types).countP holds < UInt64.size := by
  have selected := List.countP_le_length (p := holds) (l := heap.covered types)
  have covered : (heap.covered types).length ≤ heap.objects.length := List.length_filter_le _ _
  have wide : UInt32.size < UInt64.size := by decide
  omega

theorem ranks_once_iff {name : String} {reports : List ScanReport} {after : Session SyntheticHeap}
    (resolved : (resolve SyntheticHeap.walker name).perform session = (.ok types, found))
    (nonempty : types ≠ []) (few : found.world.objects.length < UInt32.size)
    (coherent : Tally.Coherent found.world.objects)
    (scanned : (scanAll SyntheticHeap.walker types).perform found = (.ok reports, after))
    (covers : List.Forall₂ (Covers found.world) types reports) :
    RanksOnce session name found.world types ↔ found.world.Separate types := by
  let admitted := Ranking.admitted false (reports.map (·.tally))
  constructor
  · intro ranks object member
    obtain ⟨report, other, performed, right⟩ := ranks (admitted.length + 1) (Nat.succ_ne_zero _)
    -- as many rows as there are pairs, so the ranking cuts off no name
    rw [top_instances_perform (Nat.succ_ne_zero _) resolved nonempty scanned] at performed
    obtain ⟨outcome, _⟩ := Prod.mk.inj performed
    cases merged : Ranking.topMerged (reports.map (·.tally)) (admitted.length + 1) false with
    | error failure => cases failure <;> simp [merged, Outcome.mapError, Except.map] at outcome
    | ok ranked =>
        rw [merged] at outcome
        obtain rfl := Except.ok.inj outcome
        have sums := sum_of_right_rows covers coherent merged (Nat.le_succ _) right
        have once := (SyntheticHeap.sum_eq_covered_iff _ _ _).mp (sums object.type.canonicalName)
        exact once object member (decide_eq_true rfl)
  · intro separate rows positive
    have counts : ∀ key, sumOfNamed key admitted =
        (found.world.covered types).countP fun object => object.type.canonicalName = key := by
      intro key
      refine (merged_sum covers coherent key).trans ?_
      exact (SyntheticHeap.sum_eq_covered_iff _ _ _).mpr fun object member _ => separate object member
    obtain ⟨ranked, merged⟩ := Ranking.top_merged_ok (reports.map (·.tally)) rows false positive
      fun key => counts key ▸ covered_fits types few _
    have performed : (topInstances SyntheticHeap.walker name rows false).perform session = _ :=
      top_instances_perform positive resolved nonempty scanned
    rw [merged] at performed
    refine ⟨_, after, performed, fun row shown => ?_⟩
    rw [Ranking.top_merged_counts merged shown]
    exact counts row.key

/-- Whatever is resolved and remembered, the two queries are right about a name exactly when no live object
is an instance of two of its types. -/
theorem counted_once_iff_separate (session : Session SyntheticHeap) (name : String)
    (types : List HeapClass) (found : Session SyntheticHeap) (amount : Nat)
    (issued : Issued amount session.census.registry) (room : amount + 1 + types.length < UInt64.size)
    (coherent : Tally.Coherent session.world.objects) (few : session.world.objects.length < UInt32.size)
    (resolved : (resolve SyntheticHeap.walker name).perform session = (.ok types, found))
    (nonempty : types ≠ []) :
    found.world.objects = session.world.objects ∧
      (∃ after, (countOfAny SyntheticHeap.walker name).perform session =
        (.ok ⟨shownName name, (found.world.objects.map (found.world.rootsAbove types)).sum, types.length⟩,
          after)) ∧
      (CountsOnce session name found.world types ↔ found.world.Separate types) ∧
      (RanksOnce session name found.world types ↔ found.world.Separate types) := by
  have settled : Settled session.world.objects (amount + 1) found := by
    have before : Settled session.world.objects amount session := ⟨rfl, amount, Nat.le_refl _, issued⟩
    have led := settled_resolve name (by omega) session before
    rwa [resolved] at led
  obtain ⟨later, bounded, issuedLater⟩ := settled.issued
  rw [← settled.objects] at few coherent
  obtain ⟨reports, after, scanned, covers⟩ := scan_all_covers found types issuedLater (by omega) few
  refine ⟨settled.objects, ?_, counts_once_iff resolved nonempty few,
    ranks_once_iff resolved nonempty few coherent scanned covers⟩
  obtain ⟨counted, performed⟩ := count_of_any_sum resolved nonempty few
  have summed := SyntheticHeap.sum_below found.world types fun _ => true
  simp only [List.countP_true, List.filter_true] at summed
  exact ⟨counted, summed ▸ performed⟩

/-- A loader defines a type of its own name below the one of the bootstrap loader; of its two live objects
one is an instance of both. -/
def shadowed : Session SyntheticHeap :=
  let base := SyntheticHeap.new.defineType "Base" .concrete [] none
  let loader := base.2.newLoader
  let own := loader.2.defineType "Base" .concrete [base.1] (some loader.1)
  { census := Census.idle (Latency.empty 4 (by decide))
    world := (own.2.allocate own.1).2 }

def shadowedTypes : List HeapClass :=
  [.plain ⟨12⟩ "Base" .concrete none, .plain ⟨13⟩ "Base" .concrete (some ⟨1⟩)]

def shadowedFound : Session SyntheticHeap :=
  ((resolve SyntheticHeap.walker "Base").perform shadowed).2

set_option maxRecDepth 20000 in
theorem shadowed_resolved :
    (resolve SyntheticHeap.walker "Base").perform shadowed = (.ok shadowedTypes, shadowedFound) :=
  Prod.ext (by cbv) rfl

theorem shadowed_once_iff_separate :
    Issued 0 shadowed.census.registry ∧ 0 + 1 + shadowedTypes.length < UInt64.size ∧
      Tally.Coherent shadowed.world.objects ∧ shadowed.world.objects.length < UInt32.size ∧
      shadowedTypes ≠ [] ∧
      (CountsOnce shadowed "Base" shadowedFound.world shadowedTypes ↔
        shadowedFound.world.Separate shadowedTypes) ∧
      (RanksOnce shadowed "Base" shadowedFound.world shadowedTypes ↔
        shadowedFound.world.Separate shadowedTypes) := by
  have issued : Issued 0 shadowed.census.registry := issued_new _
  have room : 0 + 1 + shadowedTypes.length < UInt64.size := by decide
  have coherent : Tally.Coherent shadowed.world.objects := by
    unfold Tally.Coherent
    decide
  have few : shadowed.world.objects.length < UInt32.size := by decide
  have nonempty : shadowedTypes ≠ [] := by decide
  obtain ⟨_, _, counts, ranks⟩ := counted_once_iff_separate shadowed "Base" shadowedTypes shadowedFound 0
    issued room coherent few shadowed_resolved nonempty
  exact ⟨issued, room, coherent, few, nonempty, counts, ranks⟩

set_option maxRecDepth 20000 in
theorem shadowed_counted_twice :
    (resolve SyntheticHeap.walker "Base").perform shadowed = (.ok shadowedTypes, shadowedFound) ∧
      ¬ CountsOnce shadowed "Base" shadowedFound.world shadowedTypes ∧
      ¬ RanksOnce shadowed "Base" shadowedFound.world shadowedTypes := by
  have covered : shadowedFound.world.covered shadowedTypes = [⟨⟨2⟩, .plain ⟨13⟩ "Base" .concrete (some ⟨1⟩)⟩] := by
    cbv
  refine ⟨shadowed_resolved, ?_, ?_⟩
  · rintro ⟨report, after, performed, once⟩
    have twice : ((countOfAny SyntheticHeap.walker "Base").perform shadowed).1.map NameCount.count = .ok 2 := by
      cbv
    rw [performed] at twice
    rw [Except.ok.inj twice, covered] at once
    exact absurd once (by decide)
  · intro ranks
    obtain ⟨report, after, performed, once⟩ := ranks 1 Nat.one_ne_zero
    have twice : ((topInstances SyntheticHeap.walker "Base" 1 false).perform shadowed).1.map
        RankingReport.entries = .ok [⟨"Base", 2⟩] := by
      cbv
    rw [performed] at twice
    have row := once ⟨"Base", 2⟩ (by simp [Except.ok.inj twice])
    rw [covered] at row
    exact absurd row (by decide)

end Query

end HeapCensus
