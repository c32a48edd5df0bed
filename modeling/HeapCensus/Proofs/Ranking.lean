import HeapCensus.Ranking
import HeapCensus.Proofs.Tally
import Mathlib

set_option autoImplicit false

namespace HeapCensus

def amountOf (name : String) (rows : List NamedRow) : Nat :=
  ((rows.find? fun row => row.1 = name).map (·.2)).getD 0

theorem sum_of_named_le (name : String) (rows : List TallyRow) : sumOfNamed name rows ≤ sumRows rows := by
  induction rows with
  | nil => exact Nat.le_refl 0
  | cons row rows ih =>
      rw [sumOfNamed] at ih ⊢
      by_cases same : row.1.canonicalName = name
      · simp only [List.filter_cons, same, decide_true, if_true, sumRows]
        omega
      · simp only [List.filter_cons, same, decide_false, Bool.false_eq_true, if_false, sumRows]
        omega

theorem names_add_to_names (name : String) (amount : Nat) (rows : List NamedRow) :
    (addToNames name amount rows).map Prod.fst =
      if name ∈ rows.map Prod.fst then rows.map Prod.fst else rows.map Prod.fst ++ [name] := by
  induction rows with
  | nil => simp [addToNames]
  | cons row rows ih =>
      by_cases same : row.1 = name
      · simp [addToNames, same]
      · have other : name ≠ row.1 := fun equal => same equal.symm
        simp only [addToNames, same, if_false, List.map_cons, ih, List.mem_cons, other, false_or]
        split <;> simp

theorem amount_add_to_names (name other : String) (amount : Nat) (rows : List NamedRow) :
    amountOf other (addToNames name amount rows) =
      amountOf other rows + if name = other then amount else 0 := by
  induction rows with
  | nil => by_cases same : name = other <;> simp [addToNames, amountOf, same]
  | cons row rows ih =>
      by_cases named : row.1 = name
      · by_cases same : name = other <;> simp [addToNames, amountOf, named, same]
      · rw [addToNames, if_neg named]
        by_cases here : row.1 = other
        · have differs : name ≠ other := fun equal => named (here.trans equal.symm)
          simp [amountOf, here, differs]
        · simp only [amountOf] at ih
          simpa [amountOf, here] using ih

theorem amount_of_mem {rows : List NamedRow} (distinct : (rows.map Prod.fst).Nodup) {row : NamedRow}
    (member : row ∈ rows) : amountOf row.1 rows = row.2 := by
  induction rows with
  | nil => cases member
  | cons first rows ih =>
      obtain ⟨absent, rest⟩ := List.nodup_cons.mp distinct
      rcases List.mem_cons.mp member with rfl | later
      · simp [amountOf]
      · have differs : first.1 ≠ row.1 := by
          intro equal
          exact absent (equal ▸ List.mem_map_of_mem later)
        have smaller := ih rest later
        simp only [amountOf] at smaller ⊢
        rw [List.find?_cons_of_neg (by simpa using differs)]
        exact smaller

theorem sum_add_to_names (name : String) (amount : Nat) (rows : List NamedRow) :
    ((addToNames name amount rows).map Prod.snd).sum = (rows.map Prod.snd).sum + amount := by
  induction rows with
  | nil => simp [addToNames]
  | cons row rows ih =>
      by_cases same : row.1 = name
      · simp only [addToNames, if_pos same, List.map_cons, List.sum_cons]
        omega
      · simp only [addToNames, if_neg same, List.map_cons, List.sum_cons, ih]
        omega

structure Gathers (rows : List TallyRow) (named : List NamedRow) : Prop where
  distinct : (named.map Prod.fst).Nodup
  names : ∀ name, name ∈ named.map Prod.fst ↔ ∃ row ∈ rows, row.1.canonicalName = name
  amounts : ∀ name, amountOf name named = sumOfNamed name rows
  size : named.length ≤ rows.length

def gathered (rows : List TallyRow) : List NamedRow :=
  rows.foldl (fun named row => addToNames row.1.canonicalName row.2 named) []

theorem gathers_add {rows : List TallyRow} {named : List NamedRow} (gathers : Gathers rows named)
    (row : TallyRow) : Gathers (rows ++ [row]) (addToNames row.1.canonicalName row.2 named) := by
  have names := names_add_to_names row.1.canonicalName row.2 named
  refine ⟨?_, fun name => ?_, fun name => ?_, ?_⟩
  · rw [names]
    split
    · exact gathers.distinct
    · rename_i absent
      refine List.nodup_append.mpr ⟨gathers.distinct, by simp, ?_⟩
      intro first held second added equal
      have second_eq : second = row.1.canonicalName := List.mem_singleton.mp added
      exact absent (second_eq ▸ equal ▸ held)
  · have here : name ∈ (addToNames row.1.canonicalName row.2 named).map Prod.fst ↔
        name ∈ named.map Prod.fst ∨ row.1.canonicalName = name := by
      rw [names]
      by_cases present : row.1.canonicalName ∈ named.map Prod.fst
      · rw [if_pos present]
        exact ⟨.inl, fun either => either.elim id fun same => same ▸ present⟩
      · rw [if_neg present, List.mem_append, List.mem_singleton, eq_comm (b := name)]
    rw [here, gathers.names]
    simp [or_and_right, exists_or]
  · rw [amount_add_to_names, gathers.amounts, sum_of_named_append, sum_of_named_singleton]
  · have lengths := congrArg List.length names
    have before := gathers.size
    rw [List.length_map] at lengths
    rw [lengths, List.length_append]
    split
    · rw [List.length_map]
      omega
    · simpa using before

theorem gathers_gathered (rows : List TallyRow) : Gathers rows (gathered rows) := by
  induction rows using List.reverseRecOn with
  | nil => exact ⟨List.nodup_nil, by simp [gathered], fun _ => rfl, Nat.le_refl _⟩
  | append_singleton rows row ih =>
      rw [gathered, List.foldl_append]
      exact gathers_add ih row

theorem sum_gathered (rows : List TallyRow) : ((gathered rows).map Prod.snd).sum = sumRows rows := by
  induction rows using List.reverseRecOn with
  | nil => rfl
  | append_singleton rows row ih =>
      have added : gathered (rows ++ [row]) = addToNames row.1.canonicalName row.2 (gathered rows) := by
        simp [gathered]
      rw [added, sum_add_to_names, ih, sum_rows_append]
      rfl

theorem gathered_length_le {rows : List TallyRow} {names : List String}
    (within : ∀ row ∈ rows, row.1.canonicalName ∈ names) : (gathered rows).length ≤ names.length := by
  have gathers := gathers_gathered rows
  have held : (gathered rows).map Prod.fst ⊆ names := by
    intro name present
    obtain ⟨row, member, rfl⟩ := (gathers.names name).mp present
    exact within row member
  have fewer := (gathers.distinct.subperm held).length_le
  rwa [List.length_map] at fewer

theorem gather_names_if (rows : List TallyRow) :
    gatherNames rows =
      if (gathered rows).all fun row => row.2 < UInt64.size then .ok (gathered rows) else .error .overflow :=
  rfl

theorem gather_names_ok (rows : List TallyRow) (fits : ∀ name, sumOfNamed name rows < UInt64.size) :
    gatherNames rows = .ok (gathered rows) := by
  have gathers := gathers_gathered rows
  have every : ((gathered rows).all fun row => row.2 < UInt64.size) = true := by
    refine List.all_eq_true.mpr fun row member => ?_
    rw [← amount_of_mem gathers.distinct member, gathers.amounts]
    exact decide_eq_true (fits row.1)
  rw [gather_names_if, if_pos every]

theorem gather_names_eq {rows : List TallyRow} {named : List NamedRow}
    (done : gatherNames rows = .ok named) : named = gathered rows := by
  rw [gather_names_if] at done
  split at done
  · exact (Except.ok.inj done).symm
  · cases done

namespace Ranking

variable {κ : Type}

theorem mem_of_rank {rows : Nat} {entries : List (Ranked κ)} {entry : Ranked κ}
    (member : entry ∈ rank rows entries) : entry ∈ entries :=
  (List.mergeSort_perm entries _).mem_iff.mp (List.mem_of_mem_take member)

theorem rank_whole (rows : Nat) (entries : List (Ranked κ)) (enough : entries.length ≤ rows) :
    List.Perm (rank rows entries) entries := by
  have sorted := List.mergeSort_perm entries fun first second => second.count ≤ first.count
  rw [rank, List.take_of_length_le (sorted.length_eq ▸ enough)]
  exact sorted

def admitted (withoutPrimitives : Bool) (tallies : List Tally) : List TallyRow :=
  (tallies.flatMap Tally.rows).filter fun row => admits withoutPrimitives row.1

theorem admitted_all (tallies : List Tally) : admitted false tallies = tallies.flatMap Tally.rows :=
  List.filter_eq_self.mpr fun _ _ => rfl

theorem sum_admitted (tallies : List Tally) :
    sumRows (admitted false tallies) = (tallies.map Tally.sum).sum := by
  rw [admitted_all]
  induction tallies with
  | nil => rfl
  | cons tally tallies ih =>
      rw [List.flatMap_cons, sum_rows_append, ih]
      rfl

theorem top_merged_match (tallies : List Tally) (rows : Nat) (withoutPrimitives : Bool) (positive : rows ≠ 0) :
    topMerged tallies rows withoutPrimitives =
      match gatherNames (admitted withoutPrimitives tallies) with
      | .error payload => .error (.panic payload)
      | .ok named => .ok (rank rows (named.map fun row => ⟨row.1, row.2⟩)) := by
  rw [topMerged, if_neg positive]
  rfl

theorem top_merged_ok (tallies : List Tally) (rows : Nat) (withoutPrimitives : Bool) (positive : rows ≠ 0)
    (fits : ∀ name, sumOfNamed name (admitted withoutPrimitives tallies) < UInt64.size) :
    ∃ ranked, topMerged tallies rows withoutPrimitives = .ok ranked := by
  rw [top_merged_match tallies rows withoutPrimitives positive, gather_names_ok _ fits]
  exact ⟨_, rfl⟩

theorem top_merged_eq {tallies : List Tally} {rows : Nat} {withoutPrimitives : Bool}
    {ranked : List (Ranked String)} (done : topMerged tallies rows withoutPrimitives = .ok ranked) :
    ranked = rank rows ((gathered (admitted withoutPrimitives tallies)).map fun row => ⟨row.1, row.2⟩) := by
  by_cases none : rows = 0
  · simp [topMerged, none, Outcome.fail] at done
  · rw [top_merged_match tallies rows withoutPrimitives none] at done
    cases named : gatherNames (admitted withoutPrimitives tallies) with
    | error payload => simp [named] at done
    | ok rowsOfNames =>
        rw [named] at done
        rw [← gather_names_eq named]
        exact (Except.ok.inj done).symm

theorem top_merged_counts {tallies : List Tally} {rows : Nat} {withoutPrimitives : Bool}
    {ranked : List (Ranked String)} (done : topMerged tallies rows withoutPrimitives = .ok ranked)
    {row : Ranked String} (member : row ∈ ranked) :
    row.count = sumOfNamed row.key (admitted withoutPrimitives tallies) := by
  rw [top_merged_eq done] at member
  obtain ⟨named, held, rfl⟩ := List.mem_map.mp (mem_of_rank member)
  have gathers := gathers_gathered (admitted withoutPrimitives tallies)
  exact (amount_of_mem gathers.distinct held).symm.trans (gathers.amounts named.1)

theorem top_merged_whole {tallies : List Tally} {rows : Nat} {withoutPrimitives : Bool}
    {ranked : List (Ranked String)} (done : topMerged tallies rows withoutPrimitives = .ok ranked)
    (enough : (admitted withoutPrimitives tallies).length ≤ rows) {counted : TallyRow}
    (member : counted ∈ admitted withoutPrimitives tallies) :
    ∃ row ∈ ranked, row.key = counted.1.canonicalName := by
  have gathers := gathers_gathered (admitted withoutPrimitives tallies)
  have present := (gathers.names counted.1.canonicalName).mpr ⟨counted, member, rfl⟩
  obtain ⟨named, held, same⟩ := List.mem_map.mp present
  have size := gathers.size
  rw [top_merged_eq done]
  refine ⟨⟨named.1, named.2⟩, ?_, same⟩
  refine (rank_whole rows _ ?_).mem_iff.mpr (List.mem_map.mpr ⟨named, held, rfl⟩)
  rw [List.length_map]
  omega

theorem top_merged_sum {tallies : List Tally} {rows : Nat} {withoutPrimitives : Bool}
    {ranked : List (Ranked String)} (done : topMerged tallies rows withoutPrimitives = .ok ranked)
    (enough : (gathered (admitted withoutPrimitives tallies)).length ≤ rows) :
    (ranked.map Ranked.count).sum = sumRows (admitted withoutPrimitives tallies) := by
  let entries : List (Ranked String) :=
    (gathered (admitted withoutPrimitives tallies)).map fun row => ⟨row.1, row.2⟩
  have all : entries.length ≤ rows := by
    rw [List.length_map]
    exact enough
  have counts : entries.map Ranked.count = (gathered (admitted withoutPrimitives tallies)).map Prod.snd := by
    rw [List.map_map]
    rfl
  rw [top_merged_eq done, ((rank_whole rows entries all).map Ranked.count).sum_eq, counts]
  exact sum_gathered (admitted withoutPrimitives tallies)

end Ranking

end HeapCensus
