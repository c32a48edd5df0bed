set_option autoImplicit false

namespace HeapCensus.Text

def inRanges (table : List (Nat × Nat)) (point : Nat) : Bool :=
  table.any fun range => range.1 ≤ point && point ≤ range.2

theorem in_ranges_iff (table : List (Nat × Nat)) (point : Nat) :
    inRanges table point = true ↔ ∃ range ∈ table, range.1 ≤ point ∧ point ≤ range.2 := by
  simp [inRanges]

end HeapCensus.Text
