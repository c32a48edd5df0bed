import HeapCensus.Tally
import Mathlib.Data.List.Induction

set_option autoImplicit false

namespace HeapCensus

theorem sum_rows_append (first second : List TallyRow) :
    sumRows (first ++ second) = sumRows first + sumRows second := by
  induction first with
  | nil => exact (Nat.zero_add _).symm
  | cons row rows ih =>
      simp only [List.cons_append, sumRows, ih]
      omega

theorem sum_filter_append (test : TallyRow → Bool) (first second : List TallyRow) :
    sumRows ((first ++ second).filter test) = sumRows (first.filter test) + sumRows (second.filter test) := by
  rw [List.filter_append, sum_rows_append]

theorem sum_filter_singleton (test : TallyRow → Bool) (row : TallyRow) :
    sumRows ([row].filter test) = if test row then row.2 else 0 := by
  by_cases passes : test row = true <;> simp [sumRows, passes]

theorem sum_filter_none {test : TallyRow → Bool} {rows : List TallyRow} (none : ∀ row ∈ rows, ¬ test row = true) :
    sumRows (rows.filter test) = 0 := by
  rw [List.filter_eq_nil_iff.mpr none]
  rfl

def sumOfId (id : ClassId) (rows : List TallyRow) : Nat :=
  sumRows (rows.filter fun row => row.1.id = id)

def sumOfNamed (name : String) (rows : List TallyRow) : Nat :=
  sumRows (rows.filter fun row => row.1.canonicalName = name)

theorem sum_of_id_append (id : ClassId) (first second : List TallyRow) :
    sumOfId id (first ++ second) = sumOfId id first + sumOfId id second :=
  sum_filter_append _ first second

theorem sum_of_id_singleton (id : ClassId) (row : TallyRow) :
    sumOfId id [row] = if row.1.id = id then row.2 else 0 :=
  (sum_filter_singleton _ row).trans (by simp)

theorem sum_of_id_absent {id : ClassId} {rows : List TallyRow} (absent : id ∉ rows.map (·.1.id)) :
    sumOfId id rows = 0 := by
  refine sum_filter_none fun row member named => absent ?_
  exact List.mem_map.mpr ⟨row, member, of_decide_eq_true named⟩

theorem sum_of_named_append (name : String) (first second : List TallyRow) :
    sumOfNamed name (first ++ second) = sumOfNamed name first + sumOfNamed name second :=
  sum_filter_append _ first second

theorem sum_of_named_singleton (name : String) (row : TallyRow) :
    sumOfNamed name [row] = if row.1.canonicalName = name then row.2 else 0 :=
  (sum_filter_singleton _ row).trans (by simp)

theorem sum_add_to_rows (type : HeapClass) (amount : Nat) (rows : List TallyRow) :
    sumRows (addToRows type amount rows) = sumRows rows + amount := by
  induction rows with
  | nil => simp [addToRows, sumRows]
  | cons row rows ih =>
      by_cases same : row.1.id = type.id
      · simp only [addToRows, if_pos same, sumRows]
        omega
      · simp only [addToRows, if_neg same, sumRows, ih]
        omega

def findAmount (id : ClassId) (rows : List TallyRow) : Option Nat :=
  (rows.find? fun row => row.1.id = id).map (·.2)

theorem find_add_to_rows (type : HeapClass) (amount : Nat) (id : ClassId) (rows : List TallyRow) :
    findAmount id (addToRows type amount rows) =
      if type.id = id then some ((findAmount id rows).getD 0 + amount) else findAmount id rows := by
  induction rows with
  | nil =>
      by_cases same : type.id = id <;> simp [addToRows, findAmount, same]
  | cons row rows ih =>
      by_cases named : row.1.id = type.id
      · by_cases same : type.id = id <;> simp [addToRows, findAmount, named, same]
      · rw [addToRows, if_neg named]
        by_cases here : row.1.id = id
        · have other : type.id ≠ id := fun equal => named (here.trans equal.symm)
          simp [findAmount, here, other]
        · simp only [findAmount] at ih
          simpa [findAmount, here] using ih

namespace Tally

def amount? (tally : Tally) (id : ClassId) : Option Nat := findAmount id tally.rows

theorem sum_empty : empty.sum = 0 := rfl

theorem sum_add (tally : Tally) (type : HeapClass) (amount : Nat) :
    (tally.add type amount).sum = tally.sum + amount :=
  sum_add_to_rows type amount tally.rows

theorem amount_add (tally : Tally) (type : HeapClass) (amount : Nat) (id : ClassId) :
    (tally.add type amount).amount? id =
      if type.id = id then some ((tally.amount? id).getD 0 + amount) else tally.amount? id :=
  find_add_to_rows type amount id tally.rows

def ofPairs (pairs : List TallyRow) : Tally :=
  pairs.foldl (fun tally pair => tally.add pair.1 pair.2) empty

theorem of_pairs_append (pairs : List TallyRow) (pair : TallyRow) :
    ofPairs (pairs ++ [pair]) = (ofPairs pairs).add pair.1 pair.2 := by
  simp [ofPairs]

theorem sum_of_pairs (pairs : List TallyRow) : (ofPairs pairs).sum = sumRows pairs := by
  induction pairs using List.reverseRecOn with
  | nil => rfl
  | append_singleton pairs pair ih =>
      rw [of_pairs_append, sum_add, ih, sum_rows_append]
      rfl

theorem amount_of_pairs (pairs : List TallyRow) (id : ClassId) :
    (ofPairs pairs).amount? id =
      if id ∈ pairs.map (·.1.id) then some (sumOfId id pairs) else none := by
  induction pairs using List.reverseRecOn with
  | nil => rfl
  | append_singleton pairs pair ih =>
      have either : id ∈ (pairs ++ [pair]).map (·.1.id) ↔ id ∈ pairs.map (·.1.id) ∨ pair.1.id = id := by
        rw [List.map_append, List.mem_append]
        exact or_congr_right (List.mem_singleton.trans eq_comm)
      rw [of_pairs_append, amount_add, ih, sum_of_id_append, sum_of_id_singleton]
      by_cases present : id ∈ pairs.map (·.1.id)
      · rw [if_pos present, if_pos (either.mpr (.inl present))]
        by_cases same : pair.1.id = id <;> simp [same]
      · rw [if_neg present, sum_of_id_absent present]
        by_cases same : pair.1.id = id
        · rw [if_pos (either.mpr (.inr same)), if_pos same, if_pos same]
          rfl
        · rw [if_neg same, if_neg fun held => (either.mp held).elim present same]

theorem class_of_added {type : HeapClass} {amount : Nat} {rows : List TallyRow} {row : TallyRow}
    (member : row ∈ addToRows type amount rows) : row.1 = type ∨ ∃ before ∈ rows, before.1 = row.1 := by
  induction rows with
  | nil => exact .inl (by simpa [addToRows] using congrArg Prod.fst (List.mem_singleton.mp member))
  | cons first rows ih =>
      by_cases same : first.1.id = type.id
      · rw [addToRows, if_pos same] at member
        rcases List.mem_cons.mp member with rfl | later
        · exact .inr ⟨first, List.mem_cons_self, rfl⟩
        · exact .inr ⟨row, List.mem_cons_of_mem first later, rfl⟩
      · rw [addToRows, if_neg same] at member
        rcases List.mem_cons.mp member with rfl | later
        · exact .inr ⟨row, List.mem_cons_self, rfl⟩
        · rcases ih later with here | ⟨before, held, equal⟩
          · exact .inl here
          · exact .inr ⟨before, List.mem_cons_of_mem first held, equal⟩

theorem class_of_pairs (pairs : List TallyRow) {row : TallyRow} (member : row ∈ (ofPairs pairs).rows) :
    ∃ pair ∈ pairs, pair.1 = row.1 := by
  induction pairs using List.reverseRecOn generalizing row with
  | nil => cases member
  | append_singleton pairs pair ih =>
      rw [of_pairs_append] at member
      rcases class_of_added member with here | ⟨before, held, same⟩
      · exact ⟨pair, by simp, here.symm⟩
      · obtain ⟨other, present, equal⟩ := ih held
        exact ⟨other, List.mem_append_left _ present, equal.trans same⟩

theorem sum_of_name_added (type : HeapClass) (amount : Nat) (name : String) (rows : List TallyRow)
    (coherent : ∀ row ∈ rows, row.1.id = type.id → row.1 = type) :
    sumOfNamed name (addToRows type amount rows) =
      sumOfNamed name rows + if type.canonicalName = name then amount else 0 := by
  simp only [sumOfNamed]
  induction rows with
  | nil => by_cases named : type.canonicalName = name <;> simp [addToRows, sumRows, named]
  | cons row rows ih =>
      by_cases same : row.1.id = type.id
      · have equal := coherent row List.mem_cons_self same
        rw [addToRows, if_pos same]
        by_cases named : type.canonicalName = name
        · simp [equal, named, sumRows]
          omega
        · simp [equal, named]
      · have later := ih fun other member => coherent other (List.mem_cons_of_mem row member)
        rw [addToRows, if_neg same]
        by_cases named : row.1.canonicalName = name
        · simp only [List.filter_cons, named, decide_true, if_true, sumRows, later]
          omega
        · simpa [named] using later

/-- An id stands for one class among the pairs. -/
def Unambiguous (pairs : List TallyRow) : Prop :=
  ∀ first ∈ pairs, ∀ second ∈ pairs, first.1.id = second.1.id → first.1 = second.1

theorem sum_of_name_of_pairs (pairs : List TallyRow) (unambiguous : Unambiguous pairs) (name : String) :
    (ofPairs pairs).sumOfName name = sumOfNamed name pairs := by
  induction pairs using List.reverseRecOn with
  | nil => rfl
  | append_singleton pairs pair ih =>
      have before : Unambiguous pairs := fun first held second present =>
        unambiguous first (List.mem_append_left _ held) second (List.mem_append_left _ present)
      have rows : ∀ row ∈ (ofPairs pairs).rows, row.1.id = pair.1.id → row.1 = pair.1 := by
        intro row member same
        obtain ⟨other, present, equal⟩ := class_of_pairs pairs member
        rw [← equal] at same ⊢
        exact unambiguous other (List.mem_append_left _ present) pair (by simp) same
      rw [of_pairs_append, sum_of_named_append, sum_of_named_singleton, ← ih before]
      exact sum_of_name_added pair.1 pair.2 name _ rows

def ofObjects (objects : List HeapObject) : Tally :=
  objects.foldl (fun tally object => tally.add object.type 1) empty

theorem of_objects_append (objects : List HeapObject) (object : HeapObject) :
    ofObjects (objects ++ [object]) = (ofObjects objects).add object.type 1 := by
  simp [ofObjects]

def ones (objects : List HeapObject) : List TallyRow := objects.map fun object => (object.type, 1)

theorem of_objects_eq (objects : List HeapObject) : ofObjects objects = ofPairs (ones objects) := by
  rw [ofPairs, ones, List.foldl_map]
  rfl

theorem sum_ones (objects : List HeapObject) (counts : HeapClass → Bool) :
    sumRows ((ones objects).filter fun row => counts row.1) = objects.countP fun object => counts object.type := by
  induction objects with
  | nil => rfl
  | cons object objects ih =>
      have later : ones (object :: objects) = (object.type, 1) :: ones objects := rfl
      rw [later]
      by_cases counted : counts object.type = true
      · simp only [List.filter_cons, List.countP_cons, counted, if_true, sumRows, ih, Nat.add_comm]
      · simp only [List.filter_cons, List.countP_cons, counted, Bool.false_eq_true, if_false, ih, Nat.add_zero]

def occurrences (id : ClassId) (objects : List HeapObject) : Nat :=
  objects.countP fun object => object.type.id = id

theorem sum_of_objects (objects : List HeapObject) : (ofObjects objects).sum = objects.length := by
  have all := sum_ones objects fun _ => true
  rw [List.filter_eq_self.mpr fun _ _ => rfl, List.countP_true] at all
  rw [of_objects_eq, sum_of_pairs, all]

theorem amount_of_objects (objects : List HeapObject) (id : ClassId) :
    (ofObjects objects).amount? id =
      if occurrences id objects = 0 then none else some (occurrences id objects) := by
  have counted : sumOfId id (ones objects) = occurrences id objects :=
    sum_ones objects fun type => type.id = id
  have present : id ∈ (ones objects).map (·.1.id) ↔ occurrences id objects ≠ 0 := by
    rw [occurrences, ← Nat.pos_iff_ne_zero, List.countP_pos_iff]
    simp [ones]
  rw [of_objects_eq, amount_of_pairs, counted]
  by_cases absent : occurrences id objects = 0 <;> simp [present, absent]

theorem class_of_counted (objects : List HeapObject) {row : TallyRow}
    (member : row ∈ (ofObjects objects).rows) : ∃ object ∈ objects, object.type = row.1 := by
  rw [of_objects_eq] at member
  obtain ⟨pair, held, same⟩ := class_of_pairs (ones objects) member
  obtain ⟨object, present, rfl⟩ := List.mem_map.mp held
  exact ⟨object, present, same⟩

/-- An id stands for one class among the objects of a heap. -/
def Coherent (objects : List HeapObject) : Prop :=
  ∀ first ∈ objects, ∀ second ∈ objects, first.type.id = second.type.id → first.type = second.type

theorem sum_of_name_of_objects (objects : List HeapObject) (coherent : Coherent objects) (name : String) :
    (ofObjects objects).sumOfName name = objects.countP fun object => object.type.canonicalName = name := by
  have unambiguous : Unambiguous (ones objects) := by
    intro first held second present same
    obtain ⟨one, live, rfl⟩ := List.mem_map.mp held
    obtain ⟨other, alive, rfl⟩ := List.mem_map.mp present
    exact coherent one live other alive same
  rw [of_objects_eq, sum_of_name_of_pairs _ unambiguous]
  exact sum_ones objects fun type => type.canonicalName = name

end Tally

end HeapCensus
