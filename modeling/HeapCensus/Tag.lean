set_option autoImplicit false

namespace HeapCensus

structure Tag where
  value : UInt64
  deriving DecidableEq, Repr

namespace Tag

/-- Never given out: marks an object as untagged. -/
def clear : Tag := ⟨0⟩

def toSigned (tag : Tag) : Int64 := tag.value.toInt64

def ofSigned (word : Int64) : Tag := ⟨word.toUInt64⟩

theorem of_signed_to_signed (tag : Tag) : ofSigned tag.toSigned = tag := by
  cases tag
  simp [ofSigned, toSigned]

def render (tag : Tag) : String := "#" ++ Nat.repr tag.value.toNat

end Tag

structure TagCounter where
  last : Tag := Tag.clear
  deriving DecidableEq, Repr

namespace TagCounter

def next (counter : TagCounter) : Tag × TagCounter :=
  let tag : Tag := ⟨counter.last.value + 1⟩
  (tag, ⟨tag⟩)

def take (counter : TagCounter) : Nat → List Tag × TagCounter
  | 0 => ([], counter)
  | amount + 1 =>
      let first := counter.next
      let others := take first.2 amount
      (first.1 :: others.1, others.2)

end TagCounter

end HeapCensus
