import HeapCensus.HeapClass
import HeapCensus.Outcome

set_option autoImplicit false

namespace HeapCensus

abbrev TallyRow := HeapClass × Nat

def addToRows (type : HeapClass) (amount : Nat) : List TallyRow → List TallyRow
  | [] => [(type, amount)]
  | row :: rows =>
      if row.1.id = type.id then (row.1, row.2 + amount) :: rows
      else row :: addToRows type amount rows

theorem ids_add_to_rows (type : HeapClass) (amount : Nat) (rows : List TallyRow) :
    (addToRows type amount rows).map (·.1.id) =
      if type.id ∈ rows.map (·.1.id) then rows.map (·.1.id)
      else rows.map (·.1.id) ++ [type.id] := by
  induction rows with
  | nil => simp [addToRows]
  | cons row rows ih =>
      by_cases same : row.1.id = type.id
      · simp [addToRows, same]
      · have other : type.id ≠ row.1.id := fun equal => same equal.symm
        simp only [addToRows, same, if_false, List.map_cons, ih, List.mem_cons, other, false_or]
        split <;> simp

def sumRows : List TallyRow → Nat
  | [] => 0
  | row :: rows => row.2 + sumRows rows

structure Tally where
  rows : List TallyRow
  distinct : (rows.map (·.1.id)).Nodup

namespace Tally

def empty : Tally := ⟨[], List.nodup_nil⟩

def add (tally : Tally) (type : HeapClass) (amount : Nat) : Tally where
  rows := addToRows type amount tally.rows
  distinct := by
    rw [ids_add_to_rows]
    split
    · exact tally.distinct
    · rename_i absent
      rw [List.nodup_append]
      refine ⟨tally.distinct, by simp, ?_⟩
      intro first held second added equal
      simp only [List.mem_singleton] at added
      exact absent (added ▸ equal ▸ held)

def size (tally : Tally) : Nat := tally.rows.length

def count (tally : Tally) (type : HeapClass) : Nat :=
  match tally.rows.find? fun row => row.1.id = type.id with
  | some row => row.2
  | none => 0

def sum (tally : Tally) : Nat := sumRows tally.rows

def total (tally : Tally) : Except Panic Nat := counter tally.sum

def sumOfName (tally : Tally) (name : String) : Nat :=
  sumRows (tally.rows.filter fun row => row.1.canonicalName = name)

def countByName (tally : Tally) (name : String) : Except Panic Nat :=
  counter (tally.sumOfName name)

/-- Two tallies are the same when they have rows for the same classes with the same counts. -/
def same (tally other : Tally) : Bool :=
  tally.size = other.size &&
    tally.rows.all fun row =>
      other.rows.any fun candidate => candidate.1.id = row.1.id && candidate.2 = row.2

def collect (pairs : List TallyRow) : Except Panic Tally :=
  let tally := pairs.foldl (fun tally pair => tally.add pair.1 pair.2) empty
  if tally.rows.all fun row => row.2 < UInt64.size then .ok tally else .error .overflow

end Tally

abbrev NamedRow := String × Nat

def addToNames (name : String) (amount : Nat) : List NamedRow → List NamedRow
  | [] => [(name, amount)]
  | row :: rows =>
      if row.1 = name then (row.1, row.2 + amount) :: rows
      else row :: addToNames name amount rows

def gatherNames (rows : List TallyRow) : Except Panic (List NamedRow) :=
  let named := rows.foldl (fun named row => addToNames row.1.canonicalName row.2 named) []
  if named.all fun row => row.2 < UInt64.size then .ok named else .error .overflow

def Tally.named (tally : Tally) : Except Panic (List NamedRow) := gatherNames tally.rows

end HeapCensus
