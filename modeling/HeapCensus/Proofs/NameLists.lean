import HeapCensus.Settings
import HeapCensus.Proofs.Trimming

set_option autoImplicit false

namespace HeapCensus

namespace Text

theorem comma_not_in_blanks {text : List Char} (blanks : Blanks text) : ',' ∉ text :=
  fun member => absurd (blanks ',' member) (by decide)

end Text

namespace WatchSettings

open Text

/-- A name as a list of names can hold it. -/
structure Plain (name : String) : Prop where
  nonempty : name ≠ ""
  whole : ',' ∉ name.toList
  bare : Bare name.toList

/-- The items between the commas of a text: the names with blanks around them, and blank items. -/
inductive Spaced : List String → List String → Prop
  | none : Spaced [] []
  | blank (item : String) (names items : List String) : Blanks item.toList → Spaced names items →
      Spaced names (item :: items)
  | name (front name back : String) (names items : List String) : Blanks front.toList →
      Blanks back.toList → Spaced names items → Spaced (name :: names) ((front ++ name ++ back) :: items)

def joined (items : List String) : String := ",".intercalate items

def namesOf (pieces : List (List Char)) : List String :=
  ((pieces.map trim).filter (!·.isEmpty)).map String.ofList

theorem names_of_cons (piece : List Char) (pieces : List (List Char)) :
    namesOf (piece :: pieces) =
      if trim piece = [] then namesOf pieces else String.ofList (trim piece) :: namesOf pieces := by
  by_cases nothing : trim piece = [] <;> simp [namesOf, nothing]

theorem parse_appended (first second : String) :
    parseNames (first ++ "," ++ second) = parseNames first ++ parseNames second := by
  have text : (first ++ "," ++ second).toList = first.toList ++ ',' :: second.toList := by simp
  have pieces := split_append ',' first.toList second.toList
  rw [← text] at pieces
  simp only [parseNames, pieces, List.map_append, List.filter_append]

theorem parse_joined (items : List String) : parseNames (joined items) = items.flatMap parseNames := by
  induction items with
  | nil => decide
  | cons item items ih =>
      cases items with
      | nil => rw [joined, String.intercalate_singleton, List.flatMap_singleton]
      | cons next items =>
          rw [joined, String.intercalate_cons_cons, parse_appended, ← joined, ih]
          rfl

theorem parse_item {item : String} (single : ',' ∉ item.toList) : parseNames item = namesOf [item.toList] := by
  rw [parseNames, split_whole single]
  rfl

theorem parse_blank {item : String} (blanks : Blanks item.toList) : parseNames item = [] := by
  rw [parse_item (comma_not_in_blanks blanks), names_of_cons, if_pos ((trim_nil_iff _).mpr blanks)]
  rfl

theorem parse_name {front name back : String} (plain : Plain name) (before : Blanks front.toList)
    (behind : Blanks back.toList) : parseNames (front ++ name ++ back) = [name] := by
  have text : (front ++ name ++ back).toList = front.toList ++ name.toList ++ back.toList := by simp
  have single : ',' ∉ (front ++ name ++ back).toList := by
    rw [text]
    simp [comma_not_in_blanks before, plain.whole, comma_not_in_blanks behind]
  have middle : trim (front ++ name ++ back).toList = name.toList :=
    trim_of_trims ⟨front.toList, back.toList, text, before, behind, plain.bare⟩
  have something : name.toList ≠ [] := mt String.toList_eq_nil_iff.mp plain.nonempty
  rw [parse_item single, names_of_cons, middle, if_neg something, String.ofList_toList]
  rfl

theorem parse_spaced {names items : List String} (spaced : Spaced names items)
    (plain : ∀ name ∈ names, Plain name) : parseNames (joined items) = names := by
  rw [parse_joined]
  induction spaced with
  | none => rfl
  | blank item names items blanks _ ih =>
      rw [List.flatMap_cons, parse_blank blanks, ih plain, List.nil_append]
  | name front name back names items before behind _ ih =>
      obtain ⟨first, others⟩ := List.forall_mem_cons.mp plain
      rw [List.flatMap_cons, parse_name first before behind, ih others, List.singleton_append]

theorem spaced_self (names : List String) : Spaced names names := by
  induction names with
  | nil => exact .none
  | cons name names ih =>
      have alone := Spaced.name "" name "" names names (by decide) (by decide) ih
      rwa [String.empty_append, String.append_empty] at alone

theorem parsed_plain {text name : String} (member : name ∈ parseNames text) : Plain name := by
  obtain ⟨middle, kept, rfl⟩ := List.mem_map.mp member
  obtain ⟨trimmed, something⟩ := List.mem_filter.mp kept
  obtain ⟨piece, held, rfl⟩ := List.mem_map.mp trimmed
  obtain ⟨front, back, whole, _, _, bare⟩ := trim_trims piece
  refine ⟨?_, ?_, ?_⟩
  · intro nothing
    have empty : trim piece = [] := by simpa using congrArg String.toList nothing
    simp [empty] at something
  · rw [String.toList_ofList]
    intro comma
    refine separator_not_in held ?_
    rw [whole]
    exact List.mem_append_left _ (List.mem_append_right _ comma)
  · rwa [String.toList_ofList]

theorem spaced_pieces (pieces : List (List Char)) : Spaced (namesOf pieces) (pieces.map String.ofList) := by
  induction pieces with
  | nil => exact .none
  | cons piece pieces ih =>
      rw [names_of_cons, List.map_cons]
      by_cases nothing : trim piece = []
      · rw [if_pos nothing]
        refine .blank _ _ _ ?_ ih
        rw [String.toList_ofList]
        exact (trim_nil_iff piece).mp nothing
      · rw [if_neg nothing]
        obtain ⟨front, back, whole, before, behind, _⟩ := trim_trims piece
        have item : String.ofList piece = String.ofList front ++ String.ofList (trim piece) ++ String.ofList back := by
          rw [← String.ofList_append, ← String.ofList_append, ← whole]
        rw [item]
        refine .name _ _ _ _ _ ?_ ?_ ih
        · rwa [String.toList_ofList]
        · rwa [String.toList_ofList]

theorem joined_pieces (text : String) :
    joined ((splitAtChar ',' text.toList).map String.ofList) = text := by
  have pieces : (splitAtChar ',' text.toList).map (String.toList ∘ String.ofList) = splitAtChar ',' text.toList := by
    simp [Function.comp_def]
  apply String.toList_inj.mp
  rw [joined, String.toList_intercalate, List.map_map, pieces]
  exact split_joined ',' text.toList

structure KeepsNames : Prop where
  plain : ∀ text, ∀ name ∈ parseNames text, Plain name
  rejoined : ∀ text, parseNames (joined (parseNames text)) = parseNames text
  appended : ∀ first second, parseNames (first ++ "," ++ second) = parseNames first ++ parseNames second
  returned : ∀ names items, (∀ name ∈ names, Plain name) → Spaced names items → parseNames (joined items) = names
  exactly : ∀ text names, parseNames text = names ↔
    (∀ name ∈ names, Plain name) ∧ ∃ items, text = joined items ∧ Spaced names items
  configured : ∀ (environment : Environment) (names items : List String), (∀ name ∈ names, Plain name) →
    Spaced names items → environment "HEAPSCOPE_MONITOR_TYPES" = some (joined items) →
    (ofEnvironment environment).names = names

theorem names_survive_commas : KeepsNames where
  plain := fun _ _ member => parsed_plain member
  rejoined := fun _ => parse_spaced (spaced_self _) fun _ member => parsed_plain member
  appended := parse_appended
  returned := fun _ _ plain spaced => parse_spaced spaced plain
  exactly := by
    intro text names
    constructor
    · rintro rfl
      exact ⟨fun _ member => parsed_plain member, _, (joined_pieces text).symm, spaced_pieces _⟩
    · rintro ⟨plain, items, rfl, spaced⟩
      exact parse_spaced spaced plain
  configured := by
    intro environment names items plain spaced given
    rw [ofEnvironment, given]
    exact parse_spaced spaced plain

theorem spread_names_survive :
    (∀ name ∈ ["ü", "a b", "ü"], Plain name) ∧
      Spaced ["ü", "a b", "ü"] ["", "\u00a0ü", "\t", "a b\u3000", "ü"] ∧
      parseNames "ü,a b,ü" = ["ü", "a b", "ü"] ∧ parseNames ",\u00a0ü,\t,a b\u3000,ü" = ["ü", "a b", "ü"] := by
  have short : Plain "ü" := ⟨by decide, by decide, by decide⟩
  have spread : Plain "a b" := ⟨by decide, by decide, by decide⟩
  have plain : ∀ name ∈ ["ü", "a b", "ü"], Plain name := by simp [short, spread]
  have spaced : Spaced ["ü", "a b", "ü"] ["", "\u00a0ü", "\t", "a b\u3000", "ü"] :=
    .blank _ _ _ (by decide) (.name "\u00a0" "ü" "" _ _ (by decide) (by decide)
      (.blank _ _ _ (by decide) (.name "" "a b" "\u3000" _ _ (by decide) (by decide)
        (.name "" "ü" "" _ _ (by decide) (by decide) .none))))
  exact ⟨plain, spaced, names_survive_commas.returned _ _ plain (spaced_self _),
    names_survive_commas.returned _ _ plain spaced⟩

example : parseNames " java.lang.String, ,java.nio.DirectByteBuffer," =
    ["java.lang.String", "java.nio.DirectByteBuffer"] := by cbv

end WatchSettings

end HeapCensus
