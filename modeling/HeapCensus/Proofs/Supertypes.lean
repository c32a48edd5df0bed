import HeapCensus.SyntheticHeap
import Mathlib.Logic.Relation

set_option autoImplicit false

namespace HeapCensus.SupertypeTable

/-- One step upwards, from a class to one that stands in its row. -/
def Rises (table : SupertypeTable) (low high : ClassId) : Prop :=
  ∃ row, table.find? (fun row => row.1 = low) = some row ∧ high ∈ row.2

def Below (table : SupertypeTable) : ClassId → ClassId → Prop := Relation.ReflTransGen table.Rises

theorem find_without (table : SupertypeTable) (type low : ClassId) :
    (table.without type).find? (fun row => row.1 = low) =
      if low = type then none else table.find? fun row => row.1 = low := by
  rw [without, List.find?_filter]
  by_cases same : low = type
  · rw [if_pos same, List.find?_eq_none]
    intro row _ named
    simp [same] at named
  · rw [if_neg same]
    congr 1
    funext row
    by_cases named : row.1 = low
    · simp [named, same]
    · simp [named]

theorem rises_without {table : SupertypeTable} {type low high : ClassId} :
    (table.without type).Rises low high ↔ low ≠ type ∧ table.Rises low high := by
  unfold Rises
  rw [find_without]
  by_cases same : low = type <;> simp [same]

theorem below_of_without {table : SupertypeTable} {type low high : ClassId}
    (below : (table.without type).Below low high) : table.Below low high :=
  Relation.ReflTransGen.mono (fun _ _ rises => (rises_without.mp rises).2) _ _ below

theorem below_without {table : SupertypeTable} {low high : ClassId} (type : ClassId)
    (below : table.Below low high) :
    (table.without type).Below low high ∨
      ∃ next, table.Rises type next ∧ (table.without type).Below next high := by
  -- Behind the last visit of a class, a way up needs the row of that class no more.
  induction below using Relation.ReflTransGen.head_induction_on with
  | refl => exact .inl .refl
  | @head first second rises _ ih =>
      rcases ih with onwards | later
      · by_cases same : first = type
        · exact .inr ⟨second, same ▸ rises, onwards⟩
        · exact .inl (.head (rises_without.mpr ⟨same, rises⟩) onwards)
      · exact .inr later

theorem search_iff (target : ClassId) (table : SupertypeTable) (pending : List ClassId) :
    search target table pending = true ↔ ∃ low ∈ pending, table.Below low target := by
  induction table, pending using search.induct target with
  | case1 table => simp [search]
  | case2 table pending =>
      have found : table.Below target target := .refl
      simp [search, found]
  | case3 table current pending other missing ih =>
      have stuck : ¬ table.Below current target := by
        intro below
        rcases Relation.ReflTransGen.cases_head below with same | ⟨next, ⟨row, found, _⟩, _⟩
        · exact other same
        · rw [missing] at found
          cases found
      rw [search, if_neg other]
      split
      · rw [ih]
        simp [stuck]
      · rename_i found
        rw [missing] at found
        cases found
  | case4 table current pending other row found ih =>
      rw [search, if_neg other]
      split
      · rename_i missing
        rw [missing] at found
        cases found
      · rename_i again same
        obtain rfl := Option.some.inj (found.symm.trans same)
        rw [ih]
        constructor
        · rintro ⟨low, member, below⟩
          rcases List.mem_append.mp member with above | waiting
          · exact ⟨current, List.mem_cons_self, .head ⟨row, found, above⟩ (below_of_without below)⟩
          · exact ⟨low, List.mem_cons_of_mem _ waiting, below_of_without below⟩
        · rintro ⟨low, member, below⟩
          have upwards : ∀ next, table.Rises current next → next ∈ row.2 ++ pending := by
            rintro next ⟨held, named, above⟩
            obtain rfl := Option.some.inj (found.symm.trans named)
            exact List.mem_append_left _ above
          rcases below_without current below with straight | ⟨next, rises, onwards⟩
          · rcases List.mem_cons.mp member with here | waiting
            · rcases Relation.ReflTransGen.cases_head straight with same | ⟨next, rises, _⟩
              · exact absurd (here.symm.trans same) other
              · exact absurd here (rises_without.mp rises).1
            · exact ⟨low, List.mem_append_right _ waiting, straight⟩
          · exact ⟨next, upwards next rises, onwards⟩

theorem is_subtype_iff (table : SupertypeTable) (type target : ClassId) :
    table.isSubtype type target = true ↔ table.Below type target := by
  rw [isSubtype, search_iff]
  simp

theorem rises_append (table : SupertypeTable) (row : ClassId × List ClassId) (low high : ClassId) :
    Rises (table ++ [row]) low high ↔
      table.Rises low high ∨
        (table.find? (fun row => row.1 = low) = none ∧ row.1 = low ∧ high ∈ row.2) := by
  unfold Rises
  rw [List.find?_append]
  cases found : table.find? fun row => row.1 = low with
  | some held => simp
  | none => by_cases named : row.1 = low <;> simp [named]

theorem below_append {table : SupertypeTable} {root target : ClassId} (type : ClassId)
    (highest : ∀ high, ¬ table.Rises root high) (other : target ≠ root) (low : ClassId) :
    Below (table ++ [(type, [root])]) low target ↔ table.Below low target := by
  constructor
  · intro below
    induction below using Relation.ReflTransGen.head_induction_on with
    | refl => exact .refl
    | head rises _ ih =>
        rcases (rises_append _ _ _ _).mp rises with before | ⟨_, _, added⟩
        · exact .head before ih
        · obtain rfl := List.mem_singleton.mp added
          rcases Relation.ReflTransGen.cases_head ih with same | ⟨high, rises, _⟩
          · exact absurd same.symm other
          · exact absurd rises (highest high)
  · exact Relation.ReflTransGen.mono (fun _ _ rises => (rises_append _ _ _ _).mpr (.inl rises)) _ _

end HeapCensus.SupertypeTable
