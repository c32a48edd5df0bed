import HeapCensus.Text.Blank
import HeapCensus.Text.Split
import Mathlib.Data.List.TakeWhile

set_option autoImplicit false

namespace HeapCensus.Text

def Blanks (text : List Char) : Prop := ∀ c ∈ text, isBlank c = true

/-- Tested over the text: a statement about all characters would be tested over every character. -/
instance (text : List Char) : Decidable (Blanks text) :=
  decidable_of_iff (text.all isBlank = true) List.all_eq_true

def Bare (text : List Char) : Prop :=
  (∀ c ∈ text.head?, isBlank c = false) ∧ ∀ c ∈ text.getLast?, isBlank c = false

instance (text : List Char) : Decidable (Bare text) :=
  decidable_of_iff (text.head?.all (!isBlank ·) = true ∧ text.getLast?.all (!isBlank ·) = true)
    (by simp [Bare, Option.all_eq_true])

/-- The middle of a text, with nothing but blanks around it. -/
def Trims (text middle : List Char) : Prop :=
  ∃ front back, text = front ++ middle ++ back ∧ Blanks front ∧ Blanks back ∧ Bare middle

theorem blanks_reverse {text : List Char} (blanks : Blanks text) : Blanks text.reverse :=
  fun c member => blanks c (List.mem_reverse.mp member)

theorem blanks_taken (text : List Char) : Blanks (text.takeWhile isBlank) :=
  fun _ member => List.mem_takeWhile_imp member

theorem drop_nothing {text : List Char} (first : ∀ c ∈ text.head?, isBlank c = false) :
    text.dropWhile isBlank = text := by
  cases text with
  | nil => rfl
  | cons c rest => exact List.dropWhile_cons_of_neg (by simp [first c rfl])

theorem first_not_blank (text : List Char) : ∀ c ∈ (text.dropWhile isBlank).head?, isBlank c = false := by
  intro c first
  have stopped := List.head?_dropWhile_not isBlank text
  rw [Option.mem_def.mp first] at stopped
  exact stopped

theorem trim_trims (text : List Char) : Trims text (trim text) := by
  let front := trimFront text
  let back := (front.reverse.takeWhile isBlank).reverse
  have before : text.takeWhile isBlank ++ front = text := List.takeWhile_append_dropWhile
  have behind : trim text ++ back = front := by
    have whole : front.reverse.takeWhile isBlank ++ front.reverse.dropWhile isBlank = front.reverse :=
      List.takeWhile_append_dropWhile
    have reversed := congrArg List.reverse whole
    rwa [List.reverse_append, List.reverse_reverse] at reversed
  refine ⟨text.takeWhile isBlank, back, ?_, blanks_taken text, blanks_reverse (blanks_taken _), ?_, ?_⟩
  · rw [List.append_assoc, behind, before]
  · intro c first
    refine first_not_blank text c ?_
    change front.head? = some c
    rw [← behind, List.head?_append, Option.mem_def.mp first]
    rfl
  · intro c last
    refine first_not_blank front.reverse c ?_
    rwa [trim, trimBack, List.getLast?_reverse] at last

theorem trim_of_trims {text middle : List Char} (trims : Trims text middle) : trim text = middle := by
  obtain ⟨front, back, rfl, before, behind, first, last⟩ := trims
  rw [trim, trimFront, List.append_assoc, List.dropWhile_append_of_pos before]
  cases middle with
  | nil =>
      rw [List.nil_append, List.dropWhile_eq_nil_iff.mpr behind]
      rfl
  | cons c rest =>
      have kept : (c :: rest ++ back).dropWhile isBlank = c :: rest ++ back := drop_nothing first
      have ending : (c :: rest).reverse.dropWhile isBlank = (c :: rest).reverse := by
        refine drop_nothing ?_
        rw [List.head?_reverse]
        exact last
      rw [kept, trimBack, List.reverse_append, List.dropWhile_append_of_pos (blanks_reverse behind), ending,
        List.reverse_reverse]

theorem trim_nil_iff (text : List Char) : trim text = [] ↔ Blanks text := by
  constructor
  · intro nothing
    obtain ⟨front, back, whole, before, behind, _⟩ := trim_trims text
    rw [nothing, List.append_nil] at whole
    rw [whole]
    exact fun c member => (List.mem_append.mp member).elim (before c) (behind c)
  · intro blanks
    exact trim_of_trims ⟨text, [], by simp, blanks, nofun, nofun, nofun⟩

def apart (first second : List (Nat × Nat)) : Bool :=
  first.all fun low => second.all fun high => low.2 < high.1 || high.2 < low.1

theorem in_ranges_apart {first second : List (Nat × Nat)} (disjoint : apart first second = true)
    {point : Nat} (held : inRanges first point = true) : inRanges second point = false := by
  obtain ⟨low, member, above, below⟩ := (in_ranges_iff first point).mp held
  refine Bool.eq_false_iff.mpr fun other => ?_
  obtain ⟨high, present, upper, lower⟩ := (in_ranges_iff second point).mp other
  have separate := List.all_eq_true.mp (List.all_eq_true.mp disjoint low member) high present
  simp only [Bool.or_eq_true, decide_eq_true_eq] at separate
  omega

theorem split_cons_separator (separator : Char) (rest : List Char) :
    splitAtChar separator (separator :: rest) = [] :: splitAtChar separator rest := if_pos rfl

theorem split_cons_other {separator c : Char} {rest piece : List Char} {pieces : List (List Char)}
    (other : c ≠ separator) (parts : splitAtChar separator rest = piece :: pieces) :
    splitAtChar separator (c :: rest) = (c :: piece) :: pieces := by
  rw [splitAtChar, if_neg other, parts]

theorem split_cons (separator : Char) (text : List Char) :
    ∃ piece pieces, splitAtChar separator text = piece :: pieces :=
  List.exists_cons_of_ne_nil (split_at_char_ne_nil separator text)

theorem split_joined (separator : Char) (text : List Char) :
    [separator].intercalate (splitAtChar separator text) = text := by
  induction text with
  | nil => rfl
  | cons c rest ih =>
      obtain ⟨piece, pieces, parts⟩ := split_cons separator rest
      by_cases same : c = separator
      · rw [same, split_cons_separator, List.intercalate_cons_of_ne_nil (split_at_char_ne_nil separator rest), ih]
        rfl
      · rw [split_cons_other same parts, List.intercalate_cons_cons_left, ← parts, ih]

theorem split_append (separator : Char) (first second : List Char) :
    splitAtChar separator (first ++ separator :: second) =
      splitAtChar separator first ++ splitAtChar separator second := by
  induction first with
  | nil => exact split_cons_separator separator second
  | cons c rest ih =>
      rw [List.cons_append]
      by_cases same : c = separator
      · rw [same, split_cons_separator, split_cons_separator, ih, List.cons_append]
      · obtain ⟨piece, pieces, parts⟩ := split_cons separator rest
        rw [parts, List.cons_append] at ih
        rw [split_cons_other same ih, split_cons_other same parts, List.cons_append]

theorem split_whole {separator : Char} {piece : List Char} (absent : separator ∉ piece) :
    splitAtChar separator piece = [piece] := by
  induction piece with
  | nil => rfl
  | cons c rest ih =>
      obtain ⟨other, later⟩ := not_or.mp (mt List.mem_cons.mpr absent)
      exact split_cons_other (Ne.symm other) (ih later)

theorem split_first {separator : Char} {piece : List Char} (absent : separator ∉ piece) (rest : List Char) :
    splitAtChar separator (piece ++ separator :: rest) = piece :: splitAtChar separator rest := by
  rw [split_append, split_whole absent, List.singleton_append]

theorem separator_not_in {separator : Char} {text piece : List Char}
    (member : piece ∈ splitAtChar separator text) : separator ∉ piece := by
  induction text generalizing piece with
  | nil =>
      obtain rfl := List.mem_singleton.mp member
      exact List.not_mem_nil
  | cons c rest ih =>
      by_cases same : c = separator
      · rw [same, split_cons_separator] at member
        rcases List.mem_cons.mp member with rfl | later
        · exact List.not_mem_nil
        · exact ih later
      · obtain ⟨next, pieces, parts⟩ := split_cons separator rest
        rw [parts] at ih
        rw [split_cons_other same parts] at member
        rcases List.mem_cons.mp member with rfl | later
        · exact List.not_mem_cons_of_ne_of_not_mem (Ne.symm same) (ih List.mem_cons_self)
        · exact ih (List.mem_cons_of_mem _ later)

end HeapCensus.Text
