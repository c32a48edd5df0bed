import HeapCensus.TypeName
import HeapCensus.Proofs.Trimming

set_option autoImplicit false

namespace HeapCensus

namespace Text

theorem letters_apart : apart letterRanges blankRanges = true := by decide +kernel

theorem numbers_apart : apart numberRanges blankRanges = true := by decide +kernel

theorem letter_not_blank {c : Char} (letter : isLetter c = true) : isBlank c = false :=
  in_ranges_apart letters_apart letter

theorem number_not_blank {c : Char} (number : isNumber c = true) : isBlank c = false :=
  in_ranges_apart numbers_apart number

end Text

namespace TypeName

open Text

inductive Identifier : List Char → Prop
  | word (first : Char) (others : List Char) :
      (isLetter first = true ∨ first = '_' ∨ first = '$') →
      (∀ c ∈ others, isLetter c = true ∨ isNumber c = true ∨ c = '_' ∨ c = '$') →
      Identifier (first :: others)

inductive Dotted : List Char → Prop
  | one (word : List Char) : Identifier word → Dotted word
  | more (word rest : List Char) : Identifier word → Dotted rest → Dotted (word ++ '.' :: rest)

/-- So many pairs of brackets behind a base, each with blanks in front of it. -/
inductive Bracketed (base : List Char) : Nat → List Char → Prop
  | none : Bracketed base 0 base
  | pair (amount : Nat) (text blanks : List Char) : Bracketed base amount text → Blanks blanks →
      Bracketed base (amount + 1) (text ++ blanks ++ ['[', ']'])

def Spells (text : List Char) (name : TypeName) : Prop :=
  ∃ front middle back, text = front ++ middle ++ back ∧ Blanks front ∧ Blanks back ∧
    Dotted name.base.toList ∧ Bracketed name.base.toList name.dimensions middle

def Plain (c : Char) : Prop := isLetter c = true ∨ isNumber c = true ∨ c = '_' ∨ c = '$'

theorem plain_not_blank {c : Char} (plain : Plain c) : isBlank c = false := by
  rcases plain with letter | number | rfl | rfl
  · exact letter_not_blank letter
  · exact number_not_blank number
  · decide
  · decide

theorem plain_ne {c mark : Char} (plain : Plain c) (other : isLetter mark = false)
    (uncounted : isNumber mark = false) (underscore : mark ≠ '_') (dollar : mark ≠ '$') : c ≠ mark := by
  rintro rfl
  rcases plain with letter | number | same | same
  · exact absurd (other.symm.trans letter) Bool.false_ne_true
  · exact absurd (uncounted.symm.trans number) Bool.false_ne_true
  · exact underscore same
  · exact dollar same

theorem plain_ne_dot {c : Char} (plain : Plain c) : c ≠ '.' :=
  plain_ne plain (by decide +kernel) (by decide +kernel) (by decide) (by decide)

theorem plain_ne_bracket {c : Char} (plain : Plain c) : c ≠ ']' :=
  plain_ne plain (by decide +kernel) (by decide +kernel) (by decide) (by decide)

theorem identifier_plain {word : List Char} (identifier : Identifier word) : ∀ c ∈ word, Plain c := by
  obtain ⟨first, others, start, rest⟩ := identifier
  intro c member
  rcases List.mem_cons.mp member with rfl | later
  · exact start.imp_right .inr
  · exact rest c later

theorem continues_iff (c : Char) : continuesIdentifier c = true ↔ Plain c := by
  simp only [continuesIdentifier, startsIdentifier, Plain, Bool.or_eq_true, decide_eq_true_eq]
  rw [or_assoc, or_assoc]
  exact or_congr_right or_rotate.symm

theorem identifier_iff (word : List Char) : isIdentifier word = true ↔ Identifier word := by
  cases word with
  | nil =>
      refine ⟨nofun, fun identifier => ?_⟩
      cases identifier
  | cons first others =>
      have start : startsIdentifier first = true ↔ isLetter first = true ∨ first = '_' ∨ first = '$' := by
        simp [startsIdentifier, or_assoc]
      have rest : others.all continuesIdentifier = true ↔ ∀ c ∈ others, Plain c := by
        rw [List.all_eq_true]
        exact forall₂_congr fun c _ => continues_iff c
      rw [isIdentifier, Bool.and_eq_true, start, rest]
      constructor
      · exact fun both => .word first others both.1 both.2
      · rintro ⟨_, _, first, others⟩
        exact ⟨first, others⟩

theorem dot_not_in {word : List Char} (identifier : Identifier word) : '.' ∉ word :=
  fun member => plain_ne_dot (identifier_plain identifier _ member) rfl

theorem dotted_pieces {pieces : List (List Char)} (nonempty : pieces ≠ [])
    (words : ∀ piece ∈ pieces, Identifier piece) : Dotted (['.'].intercalate pieces) := by
  induction pieces with
  | nil => exact absurd rfl nonempty
  | cons piece others ih =>
      obtain ⟨word, rest⟩ := List.forall_mem_cons.mp words
      cases others with
      | nil =>
          have alone : ['.'].intercalate [piece] = piece := by simp [List.intercalate]
          rw [alone]
          exact .one piece word
      | cons next others =>
          rw [List.intercalate_cons_cons, List.append_assoc]
          exact .more piece _ word (ih (List.cons_ne_nil next others) rest)

theorem binary_name_iff (text : List Char) : isBinaryName text = true ↔ Dotted text := by
  constructor
  · intro checked
    have words : ∀ piece ∈ splitAtChar '.' text, Identifier piece := by
      intro piece member
      exact (identifier_iff piece).mp (List.all_eq_true.mp checked piece member)
    rw [← split_joined '.' text]
    exact dotted_pieces (split_at_char_ne_nil '.' text) words
  · intro dotted
    rw [isBinaryName]
    induction dotted with
    | one word identifier =>
        rw [split_whole (dot_not_in identifier)]
        simp [(identifier_iff word).mpr identifier]
    | more word rest identifier _ ih =>
        rw [split_first (dot_not_in identifier), List.all_cons, (identifier_iff word).mpr identifier, ih]
        rfl

theorem dotted_first {text : List Char} (dotted : Dotted text) : ∃ c rest, text = c :: rest ∧ Plain c := by
  cases dotted with
  | one word identifier =>
      obtain ⟨first, others, start, _⟩ := identifier
      exact ⟨first, others, rfl, start.imp_right .inr⟩
  | more word rest identifier =>
      obtain ⟨first, others, start, _⟩ := identifier
      exact ⟨first, _, rfl, start.imp_right .inr⟩

theorem dotted_last {text : List Char} (dotted : Dotted text) : ∀ c ∈ text.getLast?, Plain c := by
  induction dotted with
  | one word identifier =>
      exact fun c last => identifier_plain identifier c (List.mem_of_getLast? last)
  | more word rest _ dotted ih =>
      obtain ⟨c, others, rfl, _⟩ := dotted_first dotted
      intro d last
      refine ih d ?_
      simpa [List.getLast?_append] using last

theorem strip_pair (rest : List Char) :
    stripDimensions (']' :: '[' :: rest) =
      ((stripDimensions (rest.dropWhile isBlank)).1, (stripDimensions (rest.dropWhile isBlank)).2 + 1) := by
  rw [stripDimensions]

theorem strip_nothing {text : List Char} (other : ∀ c ∈ text.head?, c ≠ ']') :
    stripDimensions text = (text, 0) := by
  rw [stripDimensions]
  rintro rest rfl
  exact other ']' rfl rfl

theorem bracketed_strip (text : List Char) :
    Bracketed (stripDimensions text).1.reverse (stripDimensions text).2 text.reverse := by
  induction text using stripDimensions.induct with
  | case1 rest ih =>
      have whole : (rest.dropWhile isBlank).reverse ++ (rest.takeWhile isBlank).reverse = rest.reverse := by
        rw [← List.reverse_append, List.takeWhile_append_dropWhile]
      have text : (']' :: '[' :: rest).reverse =
          (rest.dropWhile isBlank).reverse ++ (rest.takeWhile isBlank).reverse ++ ['[', ']'] := by
        rw [whole]
        simp
      rw [strip_pair, text]
      exact .pair _ _ _ ih (blanks_reverse (blanks_taken rest))
  | case2 text other =>
      rw [stripDimensions]
      · exact .none
      · exact other

theorem bracketed_split (text : List Char) :
    Bracketed (splitDimensions text).1 (splitDimensions text).2 text := by
  have stripped := bracketed_strip text.reverse
  rwa [List.reverse_reverse] at stripped

theorem bracketed_last {base text : List Char} {amount : Nat} (bracketed : Bracketed base amount text)
    (ending : ∀ c ∈ base.getLast?, isBlank c = false) : ∀ c ∈ text.getLast?, isBlank c = false := by
  cases bracketed with
  | none => exact ending
  | pair amount text blanks =>
      intro c last
      have bracket : ']' = c := by simpa using last
      rw [← bracket]
      decide

theorem strip_bracketed {base text : List Char} {amount : Nat} (bracketed : Bracketed base amount text)
    (ending : ∀ c ∈ base.getLast?, Plain c) : stripDimensions text.reverse = (base.reverse, amount) := by
  induction bracketed with
  | none =>
      refine strip_nothing fun c first => plain_ne_bracket (ending c ?_)
      rwa [← List.head?_reverse]
  | pair amount text blanks inner all ih =>
      have last := bracketed_last inner fun c last => plain_not_blank (ending c last)
      have behind : (blanks.reverse ++ text.reverse).dropWhile isBlank = text.reverse := by
        rw [List.dropWhile_append_of_pos (blanks_reverse all)]
        refine drop_nothing ?_
        rwa [List.head?_reverse]
      have reversed : (text ++ blanks ++ ['[', ']']).reverse =
          ']' :: '[' :: (blanks.reverse ++ text.reverse) := by
        simp
      rw [reversed, strip_pair, behind, ih]

theorem split_bracketed {base text : List Char} {amount : Nat} (bracketed : Bracketed base amount text)
    (ending : ∀ c ∈ base.getLast?, Plain c) : splitDimensions text = (base, amount) := by
  rw [splitDimensions, strip_bracketed bracketed ending, List.reverse_reverse]

theorem bracketed_first {text rest : List Char} {first : Char} {amount : Nat}
    (bracketed : Bracketed (first :: rest) amount text) : ∃ others, text = first :: others := by
  induction bracketed with
  | none => exact ⟨rest, rfl⟩
  | pair amount text blanks _ _ ih =>
      obtain ⟨others, rfl⟩ := ih
      exact ⟨_, rfl⟩

theorem spells_trims {text : List Char} {name : TypeName} (spells : Spells text name) :
    ∃ c rest, Trims text (c :: rest) ∧ Dotted name.base.toList ∧
      Bracketed name.base.toList name.dimensions (c :: rest) := by
  obtain ⟨front, middle, back, whole, before, behind, dotted, bracketed⟩ := spells
  obtain ⟨c, others, base, plain⟩ := dotted_first dotted
  obtain ⟨rest, rfl⟩ := bracketed_first (base ▸ bracketed)
  have last := bracketed_last bracketed fun d last => plain_not_blank (dotted_last dotted d last)
  refine ⟨c, rest, ⟨front, back, whole, before, behind, ?_, last⟩, dotted, bracketed⟩
  intro d first
  obtain rfl := Option.some.inj first
  exact plain_not_blank plain

theorem parse_blanks {text : String} (blanks : Blanks text.toList) :
    TypeName.parse text = .error .empty := by
  rw [parse, (trim_nil_iff text.toList).mpr blanks]

theorem parse_trimmed {text : String} {c : Char} {rest : List Char} (trimmed : trim text.toList = c :: rest) :
    TypeName.parse text =
      if isBinaryName (splitDimensions (c :: rest)).1 then
        .ok ⟨String.ofList (splitDimensions (c :: rest)).1, (splitDimensions (c :: rest)).2⟩
      else .error (.malformed (String.ofList (c :: rest))) := by
  rw [parse, trimmed]

theorem parse_spelled {text : String} {name : TypeName} (spells : Spells text.toList name) :
    TypeName.parse text = .ok name := by
  obtain ⟨c, rest, trims, dotted, bracketed⟩ := spells_trims spells
  have parts := split_bracketed bracketed (dotted_last dotted)
  rw [parse_trimmed (trim_of_trims trims), parts, if_pos ((binary_name_iff _).mpr dotted), String.ofList_toList]

theorem spells_parsed {text : String} {name : TypeName} (parsed : TypeName.parse text = .ok name) :
    Spells text.toList name := by
  obtain ⟨front, back, whole, before, behind, _⟩ := trim_trims text.toList
  cases trimmed : trim text.toList with
  | nil =>
      rw [parse_blanks ((trim_nil_iff _).mp trimmed)] at parsed
      cases parsed
  | cons c rest =>
      rw [parse_trimmed trimmed] at parsed
      by_cases binary : isBinaryName (splitDimensions (c :: rest)).1
      · rw [if_pos binary] at parsed
        obtain rfl := Except.ok.inj parsed
        refine ⟨front, c :: rest, back, trimmed ▸ whole, before, behind, ?_, ?_⟩
        · rw [String.toList_ofList]
          exact (binary_name_iff _).mp binary
        · rw [String.toList_ofList]
          exact bracketed_split (c :: rest)
      · rw [if_neg binary] at parsed
        cases parsed

theorem parse_ok_iff (text : String) (name : TypeName) :
    TypeName.parse text = .ok name ↔ Spells text.toList name :=
  ⟨spells_parsed, parse_spelled⟩

theorem bracketed_rendered (base : String) (dimensions : Nat) :
    Bracketed base.toList dimensions (renderTypeName base dimensions).toList := by
  induction dimensions with
  | zero => exact .none
  | succ dimensions ih =>
      have next := Bracketed.pair dimensions _ [] ih nofun
      rw [List.append_nil] at next
      rw [renderTypeName, String.toList_append]
      exact next

theorem parse_render {name : TypeName} (dotted : Dotted name.base.toList) :
    TypeName.parse name.render = .ok name := by
  refine parse_spelled ⟨[], name.render.toList, [], ?_, nofun, nofun, dotted, ?_⟩
  · simp
  · exact bracketed_rendered name.base name.dimensions

theorem parse_rendered {text : String} {name : TypeName} (parsed : TypeName.parse text = .ok name) :
    TypeName.parse name.render = .ok name := by
  obtain ⟨_, _, _, _, _, _, dotted, _⟩ := spells_parsed parsed
  exact parse_render dotted

theorem parse_empty_iff (text : String) : TypeName.parse text = .error .empty ↔ Blanks text.toList := by
  refine ⟨fun parsed => ?_, parse_blanks⟩
  cases trimmed : trim text.toList with
  | nil => exact (trim_nil_iff _).mp trimmed
  | cons c rest =>
      rw [parse_trimmed trimmed] at parsed
      split at parsed <;> cases parsed

theorem trims_iff {text middle : List Char} : Trims text middle ↔ trim text = middle := by
  constructor
  · exact trim_of_trims
  · rintro rfl
    exact trim_trims text

theorem parse_malformed_iff (text shown : String) :
    TypeName.parse text = .error (.malformed shown) ↔
      ¬ Blanks text.toList ∧ (∀ name, ¬ Spells text.toList name) ∧ Trims text.toList shown.toList := by
  have unspelled : (∀ name, ¬ Spells text.toList name) ↔ ∀ name, TypeName.parse text ≠ .ok name :=
    forall_congr' fun name => not_congr (parse_ok_iff text name).symm
  rw [unspelled, trims_iff, ← trim_nil_iff]
  cases trimmed : trim text.toList with
  | nil =>
      rw [parse_blanks ((trim_nil_iff _).mp trimmed)]
      simp
  | cons c rest =>
      have filled : ¬ c :: rest = [] := List.cons_ne_nil c rest
      have same : c :: rest = shown.toList ↔ String.ofList (c :: rest) = shown := by
        rw [← String.toList_inj, String.toList_ofList]
      rw [parse_trimmed trimmed, same]
      by_cases binary : isBinaryName (splitDimensions (c :: rest)).1
      · rw [if_pos binary]
        simp
      · rw [if_neg binary]
        simp

/-- A text that is neither blank nor spells a name is told back as it stands between its blanks. -/
theorem parse_exactly (text : String) :
    (∀ name, TypeName.parse text = .ok name ↔ Spells text.toList name) ∧
    (∀ first second, Spells text.toList first → Spells text.toList second → first = second) ∧
    (TypeName.parse text = .error .empty ↔ Blanks text.toList) ∧
    (∀ shown, TypeName.parse text = .error (.malformed shown) ↔
      ¬ Blanks text.toList ∧ (∀ name, ¬ Spells text.toList name) ∧ Trims text.toList shown.toList) ∧
    (∀ name, TypeName.parse text = .ok name → TypeName.parse name.render = .ok name) := by
  refine ⟨parse_ok_iff text, ?_, parse_empty_iff text, parse_malformed_iff text, fun _ => parse_rendered⟩
  intro first second one other
  exact Except.ok.inj ((parse_spelled one).symm.trans (parse_spelled other))

set_option maxRecDepth 20000 in
example : TypeName.parse " a.$b []\t[] " = .ok ⟨"a.$b", 2⟩ := by cbv

end TypeName

end HeapCensus
