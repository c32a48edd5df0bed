import HeapCensus.Census.Error
import HeapCensus.Proofs.Ranking

set_option autoImplicit false

namespace HeapCensus.Ranking

variable {κ : Type}

/-- The rows are entries in descending order, as many as are wanted, and the rest counts no more. -/
structure Selects (rows : Nat) (entries ranked : List (Ranked κ)) : Prop where
  size : ranked.length = Nat.min rows entries.length
  descending : ranked.Pairwise fun first second => second.count ≤ first.count
  best : ∃ left, (ranked ++ left).Perm entries ∧ ∀ out ∈ left, ∀ row ∈ ranked, out.count ≤ row.count

def descending (first second : Ranked κ) : Bool := second.count ≤ first.count

theorem rank_eq (rows : Nat) (entries : List (Ranked κ)) :
    rank rows entries = (entries.mergeSort descending).take rows := rfl

theorem sorted_descending (entries : List (Ranked κ)) :
    (entries.mergeSort descending).Pairwise fun first second => second.count ≤ first.count := by
  have sorted : (entries.mergeSort descending).Pairwise fun first second => descending first second = true := by
    apply List.pairwise_mergeSort
    · intro first second third one other
      simp only [descending, decide_eq_true_eq] at one other ⊢
      exact Nat.le_trans other one
    · intro first second
      simp only [descending, Bool.or_eq_true, decide_eq_true_eq]
      exact Nat.le_total _ _
  exact sorted.imp fun less => of_decide_eq_true less

theorem rank_selects (rows : Nat) (entries : List (Ranked κ)) : Selects rows entries (rank rows entries) := by
  have whole := List.mergeSort_perm entries descending
  have sorted := sorted_descending entries
  rw [rank_eq]
  constructor
  case size => rw [List.length_take, whole.length_eq]
  case descending => exact sorted.sublist (List.take_sublist _ _)
  case best =>
    refine ⟨(entries.mergeSort descending).drop rows, ?_, ?_⟩
    · rw [List.take_append_drop]
      exact whole
    · rw [← List.take_append_drop rows (entries.mergeSort descending)] at sorted
      intro out left row taken
      exact (List.pairwise_append.mp sorted).2.2 row taken out left

theorem counts_sorted {entries others : List (Ranked κ)}
    (same : (entries.map Ranked.count).Perm (others.map Ranked.count)) :
    (entries.mergeSort descending).map Ranked.count = (others.mergeSort descending).map Ranked.count := by
  have counted : ∀ entries : List (Ranked κ), ((entries.mergeSort descending).map Ranked.count).Perm
      (entries.map Ranked.count) := fun entries => (List.mergeSort_perm entries descending).map Ranked.count
  have sorted : ∀ entries : List (Ranked κ), ((entries.mergeSort descending).map Ranked.count).Pairwise
      fun first second => second ≤ first := fun entries => List.pairwise_map.mpr (sorted_descending entries)
  refine List.Perm.eq_of_pairwise (fun _ _ _ _ one other => Nat.le_antisymm other one) (sorted entries)
    (sorted others) ?_
  exact (counted entries).trans (same.trans (counted others).symm)

theorem counts_of_perm {entries others : List (Ranked κ)} (rows : Nat)
    (same : (entries.map Ranked.count).Perm (others.map Ranked.count)) :
    (rank rows entries).map Ranked.count = (rank rows others).map Ranked.count := by
  rw [rank_eq, rank_eq, List.map_take, List.map_take, counts_sorted same]

theorem counts_of_more {rows more : Nat} (less : rows ≤ more) (entries : List (Ranked κ)) :
    (rank rows entries).map Ranked.count <+: (rank more entries).map Ranked.count := by
  rw [rank_eq, rank_eq]
  exact (List.take_prefix_take_left less).map Ranked.count

def Admitted (withoutPrimitives : Bool) (type : HeapClass) : Prop :=
  withoutPrimitives = true → type.elementType.isPrimitive = false

instance (withoutPrimitives : Bool) (type : HeapClass) : Decidable (Admitted withoutPrimitives type) :=
  inferInstanceAs (Decidable (_ → _))

theorem admits_eq (withoutPrimitives : Bool) (type : HeapClass) :
    admits withoutPrimitives type = decide (Admitted withoutPrimitives type) := by
  cases withoutPrimitives <;> simp [admits, Admitted, HeapClass.isPrimitiveLike]

section Classes

variable (tally : Tally) (withoutPrimitives : Bool)

def admittedRows : List TallyRow := tally.rows.filter fun row => Admitted withoutPrimitives row.1

def restricted : Tally where
  rows := tally.rows.filter fun row => Admitted withoutPrimitives row.1
  distinct := tally.distinct.sublist (List.filter_sublist.map _)

/-- A class is told by its id, so distinct entries are entries of distinct ids. -/
structure RanksClasses (rows : Nat) (ranked : List (Ranked HeapClass)) : Prop where
  distinct : (ranked.map fun row => row.key.id).Nodup
  held : ∀ row ∈ ranked, (row.key, row.count) ∈ admittedRows tally withoutPrimitives
  counts : ∀ row ∈ ranked, row.count = tally.count row.key
  size : ranked.length = Nat.min rows (admittedRows tally withoutPrimitives).length
  descending : ranked.Pairwise fun first second => second.count ≤ first.count
  best : ∀ out ∈ admittedRows tally withoutPrimitives, out.1.id ∉ ranked.map (fun row => row.key.id) →
    ∀ row ∈ ranked, out.2 ≤ row.count

def entryOf (row : TallyRow) : Ranked HeapClass := ⟨row.1, row.2⟩

theorem top_rank {rows : Nat} (positive : rows ≠ 0) :
    top tally rows withoutPrimitives = .ok (rank rows ((admittedRows tally withoutPrimitives).map entryOf)) := by
  have same : (fun row : TallyRow => admits withoutPrimitives row.1) =
      fun row => decide (Admitted withoutPrimitives row.1) := funext fun row => admits_eq withoutPrimitives row.1
  rw [top, if_neg positive, same]
  rfl

theorem count_of_row {row : TallyRow} (held : row ∈ tally.rows) : tally.count row.1 = row.2 := by
  rw [Tally.count]
  cases found : tally.rows.find? fun other => other.1.id = row.1.id with
  | none => exact absurd (decide_eq_true rfl) (List.find?_eq_none.mp found row held)
  | some other =>
      have named : other.1.id = row.1.id := by simpa using List.find?_some found
      have same := List.inj_on_of_nodup_map tally.distinct (List.mem_of_find?_eq_some found) held named
      rw [same]

theorem rank_classes (rows : Nat) :
    RanksClasses tally withoutPrimitives rows
      (rank rows ((admittedRows tally withoutPrimitives).map entryOf)) := by
  obtain ⟨size, descending, left, whole, less⟩ :=
    rank_selects rows ((admittedRows tally withoutPrimitives).map entryOf)
  have ids := whole.map fun row : Ranked HeapClass => row.key.id
  rw [List.map_append, List.map_map] at ids
  have held : ∀ row ∈ rank rows ((admittedRows tally withoutPrimitives).map entryOf),
      (row.key, row.count) ∈ admittedRows tally withoutPrimitives := by
    intro row member
    obtain ⟨counted, held, rfl⟩ := List.mem_map.mp (mem_of_rank member)
    exact held
  constructor
  case distinct => exact (ids.nodup_iff.mpr (restricted tally withoutPrimitives).distinct).of_append_left
  case held => exact held
  case counts => exact fun row member => (count_of_row tally (List.mem_filter.mp (held row member)).1).symm
  case size =>
    rw [List.length_map] at size
    exact size
  case descending => exact descending
  case best =>
    intro out admitted absent row taken
    have entry : entryOf out ∈ (admittedRows tally withoutPrimitives).map entryOf := List.mem_map_of_mem admitted
    rcases List.mem_append.mp (whole.mem_iff.mpr entry) with among | missed
    · exact absurd (List.mem_map_of_mem among) absent
    · exact less (entryOf out) missed row taken

theorem admitted_restricted :
    admittedRows (restricted tally withoutPrimitives) false = admittedRows tally withoutPrimitives :=
  List.filter_eq_self.mpr fun _ _ => decide_eq_true nofun

theorem top_restricted (rows : Nat) :
    top tally rows withoutPrimitives = top (restricted tally withoutPrimitives) rows false := by
  by_cases none : rows = 0
  · rw [none]
    rfl
  · rw [top_rank tally withoutPrimitives none, top_rank _ false none, admitted_restricted]

structure SelectsClasses : Prop where
  refused : (top tally 0 withoutPrimitives).mapError QueryError.ofRanking =
    .error (.invalidArgument "Top-N size must be at least 1")
  performed : ∀ rows, rows ≠ 0 →
    ∃ ranked, top tally rows withoutPrimitives = .ok ranked ∧ RanksClasses tally withoutPrimitives rows ranked
  -- What is excluded is excluded before the cut.
  excluded : ∀ rows, top tally rows withoutPrimitives = top (restricted tally withoutPrimitives) rows false
  rearranged : ∀ other : Tally, other.rows.Perm tally.rows → ∀ rows ranked,
    top tally rows withoutPrimitives = .ok ranked →
    ∃ again, top other rows withoutPrimitives = .ok again ∧ again.map Ranked.count = ranked.map Ranked.count
  more : ∀ rows more ranked, rows ≤ more → top tally rows withoutPrimitives = .ok ranked →
    ∃ longer, top tally more withoutPrimitives = .ok longer ∧
      ranked.map Ranked.count <+: longer.map Ranked.count

variable {tally withoutPrimitives} in
theorem top_ok {rows : Nat} {ranked : List (Ranked HeapClass)}
    (done : top tally rows withoutPrimitives = .ok ranked) :
    rows ≠ 0 ∧ ranked = rank rows ((admittedRows tally withoutPrimitives).map entryOf) := by
  by_cases none : rows = 0
  · simp [top, none] at done
  · rw [top_rank tally withoutPrimitives none] at done
    exact ⟨none, (Except.ok.inj done).symm⟩

theorem classes_selected : SelectsClasses tally withoutPrimitives := by
  constructor
  case refused => rfl
  case performed =>
    intro rows positive
    exact ⟨_, top_rank tally withoutPrimitives positive, rank_classes tally withoutPrimitives rows⟩
  case excluded => exact top_restricted tally withoutPrimitives
  case rearranged =>
    intro other same rows ranked done
    obtain ⟨positive, rfl⟩ := top_ok done
    exact ⟨_, top_rank other withoutPrimitives positive,
      counts_of_perm rows (((same.filter _).map entryOf).map Ranked.count)⟩
  case more =>
    intro rows more ranked less done
    obtain ⟨positive, rfl⟩ := top_ok done
    exact ⟨_, top_rank tally withoutPrimitives (by omega), counts_of_more less _⟩

-- The array of a primitive counts most, but it is no row and takes none of the room.
example :
    let ints := HeapClass.arrayOver ⟨2⟩ (HeapClass.primitive ⟨1⟩ "int")
    let foo := HeapClass.concrete ⟨3⟩ "com.acme.Foo" none
    top ((Tally.empty.add ints 70).add foo 2) 1 true = .ok [⟨foo, 2⟩] := by
  cbv

end Classes

section Merged

variable (tallies : List Tally) (withoutPrimitives : Bool)

def Named (name : String) : Prop :=
  ∃ tally ∈ tallies, ∃ row ∈ tally.rows, Admitted withoutPrimitives row.1 ∧ row.1.canonicalName = name

/-- What a tally has counted of the admitted classes of a name. -/
def countIn (name : String) (tally : Tally) : Nat :=
  ((tally.rows.filter fun row => Admitted withoutPrimitives row.1 ∧ row.1.canonicalName = name).map Prod.snd).sum

def mergedCount (name : String) : Nat := (tallies.map (countIn withoutPrimitives name)).sum

structure RanksMerged (rows : Nat) (ranked : List (Ranked String)) : Prop where
  distinct : (ranked.map Ranked.key).Nodup
  named : ∀ row ∈ ranked, Named tallies withoutPrimitives row.key
  counts : ∀ row ∈ ranked, row.count = mergedCount tallies withoutPrimitives row.key
  size : ∃ names : List String, names.Nodup ∧ (∀ name, name ∈ names ↔ Named tallies withoutPrimitives name) ∧
    ranked.length = Nat.min rows names.length
  descending : ranked.Pairwise fun first second => second.count ≤ first.count
  best : ∀ name, Named tallies withoutPrimitives name → name ∉ ranked.map Ranked.key →
    ∀ row ∈ ranked, mergedCount tallies withoutPrimitives name ≤ row.count

end Merged

/-- The same tallies in another order, and each of them with its rows in another order. -/
def Rearranged (tallies others : List Tally) : Prop :=
  ∃ shuffled, shuffled.Perm tallies ∧ List.Forall₂ (fun tally other => other.rows.Perm tally.rows) shuffled others

variable {tallies others : List Tally} {withoutPrimitives : Bool} {rows : Nat}

theorem sum_rows_eq (rows : List TallyRow) : sumRows rows = (rows.map Prod.snd).sum := by
  induction rows with
  | nil => rfl
  | cons row rows ih => rw [sumRows, ih, List.map_cons, List.sum_cons]

theorem mem_admitted_iff (row : TallyRow) :
    row ∈ admitted withoutPrimitives tallies ↔
      (∃ tally ∈ tallies, row ∈ tally.rows) ∧ Admitted withoutPrimitives row.1 := by
  rw [admitted, List.mem_filter, List.mem_flatMap, admits_eq, decide_eq_true_eq]

theorem named_iff (name : String) :
    Named tallies withoutPrimitives name ↔
      ∃ row ∈ admitted withoutPrimitives tallies, row.1.canonicalName = name := by
  constructor
  · rintro ⟨tally, held, row, member, admitted, named⟩
    exact ⟨row, (mem_admitted_iff row).mpr ⟨⟨tally, held, member⟩, admitted⟩, named⟩
  · rintro ⟨row, member, named⟩
    obtain ⟨⟨tally, held, member⟩, admitted⟩ := (mem_admitted_iff row).mp member
    exact ⟨tally, held, row, member, admitted, named⟩

theorem count_in_eq (tally : Tally) (withoutPrimitives : Bool) (name : String) :
    countIn withoutPrimitives name tally =
      sumOfNamed name (tally.rows.filter fun row => admits withoutPrimitives row.1) := by
  rw [countIn, sumOfNamed, sum_rows_eq, List.filter_filter]
  simp only [admits_eq, Bool.decide_and, Bool.and_comm]

theorem merged_count_eq (tallies : List Tally) (withoutPrimitives : Bool) (name : String) :
    mergedCount tallies withoutPrimitives name = sumOfNamed name (admitted withoutPrimitives tallies) := by
  induction tallies with
  | nil => rfl
  | cons tally tallies ih =>
      have parts : admitted withoutPrimitives (tally :: tallies) =
          (tally.rows.filter fun row => admits withoutPrimitives row.1) ++ admitted withoutPrimitives tallies := by
        rw [admitted, List.flatMap_cons, List.filter_append]
        rfl
      rw [parts, sum_of_named_append, ← ih, ← count_in_eq]
      rfl

theorem rank_merged {entries : List (Ranked String)} (rows : Nat)
    (same : entries.Perm ((gathered (admitted withoutPrimitives tallies)).map fun row => ⟨row.1, row.2⟩)) :
    RanksMerged tallies withoutPrimitives rows (rank rows entries) := by
  have gathers := gathers_gathered (admitted withoutPrimitives tallies)
  have keys : (entries.map Ranked.key).Perm ((gathered (admitted withoutPrimitives tallies)).map Prod.fst) := by
    have mapped := same.map Ranked.key
    rwa [List.map_map] at mapped
  have counts : ∀ entry ∈ entries, entry.count = mergedCount tallies withoutPrimitives entry.key := by
    intro entry member
    obtain ⟨row, held, rfl⟩ := List.mem_map.mp (same.mem_iff.mp member)
    rw [merged_count_eq, ← gathers.amounts]
    exact (amount_of_mem gathers.distinct held).symm
  have names : ∀ name, name ∈ entries.map Ranked.key ↔ Named tallies withoutPrimitives name := by
    intro name
    rw [keys.mem_iff, gathers.names, named_iff]
  have distinct := keys.nodup_iff.mpr gathers.distinct
  obtain ⟨size, descending, left, whole, less⟩ := rank_selects rows entries
  constructor
  case distinct =>
    have all := (whole.map Ranked.key).nodup_iff.mpr distinct
    rw [List.map_append] at all
    exact all.of_append_left
  case named =>
    intro row member
    exact (names row.key).mp (List.mem_map_of_mem (mem_of_rank member))
  case counts => exact fun row member => counts row (mem_of_rank member)
  case size => exact ⟨entries.map Ranked.key, distinct, names, by rw [List.length_map]; exact size⟩
  case descending => exact descending
  case best =>
    intro name named out row taken
    obtain ⟨entry, member, rfl⟩ := List.mem_map.mp ((names name).mpr named)
    rw [← counts entry member]
    rcases List.mem_append.mp (whole.mem_iff.mpr member) with held | missed
    · exact absurd (List.mem_map_of_mem held) out
    · exact less entry missed row taken

theorem admitted_rearranged (rearranged : Rearranged tallies others) (withoutPrimitives : Bool) :
    (admitted withoutPrimitives others).Perm (admitted withoutPrimitives tallies) := by
  obtain ⟨shuffled, order, rows⟩ := rearranged
  have same : (others.flatMap Tally.rows).Perm (shuffled.flatMap Tally.rows) := by
    clear order
    induction rows with
    | nil => exact .nil
    | cons first _ ih =>
        rw [List.flatMap_cons, List.flatMap_cons]
        exact first.append ih
  exact (same.trans (order.flatMap_right Tally.rows)).filter _

theorem gathers_eq {rows : List TallyRow} {named : List NamedRow} (gathers : Gathers rows named) :
    named = (named.map Prod.fst).map fun name => (name, sumOfNamed name rows) := by
  rw [List.map_map]
  refine ((List.map_congr_left fun row member => ?_).trans (List.map_id named)).symm
  have amount := (amount_of_mem gathers.distinct member).symm.trans (gathers.amounts row.1)
  exact Prod.ext rfl amount.symm

theorem sum_rows_perm {first second : List TallyRow} (same : first.Perm second) :
    sumRows first = sumRows second := by
  rw [sum_rows_eq, sum_rows_eq]
  exact (same.map Prod.snd).sum_eq

theorem sum_of_named_perm {first second : List TallyRow} (same : first.Perm second) (name : String) :
    sumOfNamed name first = sumOfNamed name second :=
  sum_rows_perm (same.filter _)

theorem gathered_perm {first second : List TallyRow} (same : first.Perm second) :
    (gathered first).Perm (gathered second) := by
  have one := gathers_gathered first
  have other := gathers_gathered second
  have names : ((gathered first).map Prod.fst).Perm ((gathered second).map Prod.fst) := by
    refine (List.perm_ext_iff_of_nodup one.distinct other.distinct).mpr fun name => ?_
    rw [one.names, other.names]
    simp only [same.mem_iff]
  rw [gathers_eq one, gathers_eq other, funext fun name => congrArg (Prod.mk name) (sum_of_named_perm same name)]
  exact names.map _

theorem top_merged_rank (positive : rows ≠ 0)
    (fits : ∀ name, mergedCount tallies withoutPrimitives name < UInt64.size) :
    topMerged tallies rows withoutPrimitives =
      .ok (rank rows ((gathered (admitted withoutPrimitives tallies)).map fun row => ⟨row.1, row.2⟩)) := by
  have small : ∀ name, sumOfNamed name (admitted withoutPrimitives tallies) < UInt64.size :=
    fun name => merged_count_eq tallies withoutPrimitives name ▸ fits name
  rw [top_merged_match tallies rows withoutPrimitives positive, gather_names_ok _ small]

theorem merged_count_rearranged (rearranged : Rearranged tallies others) (withoutPrimitives : Bool) (name : String) :
    mergedCount others withoutPrimitives name = mergedCount tallies withoutPrimitives name := by
  rw [merged_count_eq, merged_count_eq]
  exact sum_of_named_perm (admitted_rearranged rearranged withoutPrimitives) name

theorem merged_count_le (tallies : List Tally) (withoutPrimitives : Bool) (name : String) :
    mergedCount tallies withoutPrimitives name ≤ (tallies.map Tally.sum).sum := by
  refine List.sum_le_sum fun tally _ => ?_
  rw [countIn, Tally.sum, sum_rows_eq]
  exact (List.filter_sublist.map Prod.snd).sum_le_sum fun _ _ => Nat.zero_le _

structure SelectsMerged (tallies : List Tally) (rows : Nat) (withoutPrimitives : Bool)
    (ranked : List (Ranked String)) : Prop where
  performed : topMerged tallies rows withoutPrimitives = .ok ranked
  ranks : RanksMerged tallies withoutPrimitives rows ranked
  rearranged : ∀ others, Rearranged tallies others →
    ∃ again, topMerged others rows withoutPrimitives = .ok again ∧ again.map Ranked.count = ranked.map Ranked.count
  more : ∀ more, rows ≤ more →
    ∃ longer, topMerged tallies more withoutPrimitives = .ok longer ∧
      ranked.map Ranked.count <+: longer.map Ranked.count

theorem merged_names_selected (tallies : List Tally) (rows : Nat) (withoutPrimitives : Bool) (positive : rows ≠ 0)
    (fits : ∀ name, mergedCount tallies withoutPrimitives name < UInt64.size) :
    ∃ ranked, SelectsMerged tallies rows withoutPrimitives ranked := by
  refine ⟨_, top_merged_rank positive fits, rank_merged rows (.refl _), ?_, ?_⟩
  · intro others rearranged
    have still : ∀ name, mergedCount others withoutPrimitives name < UInt64.size :=
      fun name => merged_count_rearranged rearranged withoutPrimitives name ▸ fits name
    refine ⟨_, top_merged_rank positive still, counts_of_perm rows ?_⟩
    exact ((gathered_perm (admitted_rearranged rearranged withoutPrimitives)).map _).map _
  · intro more less
    exact ⟨_, top_merged_rank (by omega) fits, counts_of_more less _⟩

def crossed : List Tally :=
  let ints := HeapClass.arrayOver ⟨2⟩ (HeapClass.primitive ⟨1⟩ "int")
  let foo (id : Nat) := HeapClass.concrete ⟨id⟩ "com.acme.Foo" (some ⟨id⟩)
  [((Tally.empty.add ints 70).add (foo 3) 2).add (HeapClass.concrete ⟨4⟩ "com.acme.Bar" none) 5,
    (Tally.empty.add (HeapClass.concrete ⟨5⟩ "com.acme.Baz" none) 5).add (foo 6) 7]

theorem crossed_names_selected :
    2 ≠ 0 ∧ (∀ name, mergedCount crossed true name < UInt64.size) ∧
      ∃ ranked, SelectsMerged crossed 2 true ranked ∧ ranked = [⟨"com.acme.Foo", 9⟩, ⟨"com.acme.Bar", 5⟩] := by
  have fits : ∀ name, mergedCount crossed true name < UInt64.size :=
    fun name => Nat.lt_of_le_of_lt (merged_count_le crossed true name) (by decide)
  obtain ⟨ranked, selects⟩ := merged_names_selected crossed 2 true (by decide) fits
  have shown : topMerged crossed 2 true = .ok [⟨"com.acme.Foo", 9⟩, ⟨"com.acme.Bar", 5⟩] := by cbv
  exact ⟨by decide, fits, ranked, selects, Except.ok.inj (selects.performed.symm.trans shown)⟩

end HeapCensus.Ranking
