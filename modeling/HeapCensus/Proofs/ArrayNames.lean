import HeapCensus.Proofs.Denotation
import HeapCensus.Proofs.Spelling

set_option autoImplicit false

namespace HeapCensus

def descend {α : Type} (component? : α → Option α) : Nat → α → Option α
  | 0, whole => some whole
  | depth + 1, whole => (component? whole).bind (descend component? depth)

theorem descend_map {α β : Type} {first : α → Option α} {second : β → Option β} {view : α → β}
    (same : ∀ whole, second (view whole) = (first whole).map view) (depth : Nat) (whole : α) :
    descend second depth (view whole) = (descend first depth whole).map view := by
  induction depth generalizing whole with
  | zero => rfl
  | succ depth ih =>
      rw [descend, same, descend]
      cases first whole with
      | none => rfl
      | some component => exact ih component

theorem render_append (base : String) (dimensions : Nat) :
    (renderTypeName base dimensions).toList =
      base.toList ++ (List.replicate dimensions arraySuffix.toList).flatten := by
  induction dimensions with
  | zero => simp [renderTypeName]
  | succ dimensions ih =>
      rw [renderTypeName, String.toList_append, ih, List.replicate_succ', List.flatten_concat, List.append_assoc]

open HeapCensus.TypeName (Dotted)

namespace HeapClass

variable {element type : HeapClass} {amount : Nat}

inductive Levels (element : HeapClass) : Nat → HeapClass → Prop
  | none : element.isArray = false → Levels element 0 element
  | more (id : ClassId) (name : String) (loader : Option ObjectId) {amount : Nat} {component : HeapClass} :
      Levels element amount component → Levels element (amount + 1) (.array id name component loader)

/-- Arrays whose levels were all made over their components, and types that are no arrays. -/
inductive Stacked : HeapClass → Prop
  | none {type : HeapClass} : type.isArray = false → Stacked type
  | more (id : ClassId) {component : HeapClass} : Stacked component → Stacked (arrayOver id component)

theorem levels_told (levels : Levels element amount type) : type.elementType = element ∧ type.dimensions = amount := by
  induction levels with
  | none plain => exact element_of_plain plain
  | more id name loader _ ih => exact ⟨ih.1, congrArg (· + 1) ih.2⟩

theorem levels_of (type : HeapClass) : Levels type.elementType type.dimensions type := by
  induction type with
  | plain => exact .none rfl
  | array id name component loader ih => exact .more id name loader ih

theorem levels_iff : Levels element amount type ↔ type.elementType = element ∧ type.dimensions = amount := by
  constructor
  · exact levels_told
  · rintro ⟨rfl, rfl⟩
    exact levels_of type

theorem canonical_name_array (id : ClassId) (name : String) (loader : Option ObjectId) (component : HeapClass) :
    (HeapClass.array id name component loader).canonicalName = component.canonicalName ++ arraySuffix := rfl

theorem stacked_name (stacked : Stacked type) : type.name = type.canonicalName := by
  induction stacked with
  | @none type plain =>
      obtain ⟨element, dimensions⟩ := element_of_plain plain
      rw [canonicalName, element, dimensions, renderTypeName]
  | @more id component _ ih =>
      have own : (arrayOver id component).name = component.name ++ arraySuffix := rfl
      rw [own, ih, arrayOver, canonical_name_array]

def typeName (type : HeapClass) : TypeName := ⟨type.elementType.name, type.dimensions⟩

theorem render_type_name (type : HeapClass) : type.typeName.render = type.canonicalName := rfl

theorem component_type_name (type : HeapClass) : type.typeName.component? = type.component?.map typeName := by
  cases type <;> rfl

theorem descend_levels {depth : Nat} {inner : HeapClass} (found : descend component? depth type = some inner) :
    inner.elementType = type.elementType ∧ inner.dimensions + depth = type.dimensions := by
  induction depth generalizing type with
  | zero =>
      obtain rfl := Option.some.inj found
      exact ⟨rfl, rfl⟩
  | succ depth ih =>
      obtain ⟨component, made, later⟩ := Option.bind_eq_some_iff.mp found
      obtain ⟨element, dimensions⟩ := element_of_component made
      obtain ⟨same, levels⟩ := ih later
      exact ⟨same.trans element.symm, by omega⟩

theorem parse_canonical (dotted : Dotted type.elementType.name.toList) :
    TypeName.parse type.canonicalName = .ok type.typeName := by
  rw [← render_type_name]
  exact TypeName.parse_render dotted

structure Wraps (type array : HeapClass) : Prop where
  component : array.component? = some type
  dimensions : array.dimensions = type.dimensions + 1
  element : array.elementType = type.elementType
  primitiveLike : array.isPrimitiveLike = type.isPrimitiveLike
  loader : array.loader = type.loader
  canonicalName : array.canonicalName = type.canonicalName ++ "[]"

theorem wraps_array_over (id : ClassId) (type : HeapClass) : Wraps type (arrayOver id type) where
  component := rfl
  dimensions := rfl
  element := rfl
  primitiveLike := rfl
  loader := rfl
  canonicalName := rfl

structure ReadsBack (type : HeapClass) : Prop where
  parses : TypeName.parse type.canonicalName = .ok ⟨type.elementType.name, type.dimensions⟩
  levels : ∀ depth, descend TypeName.component? depth type.typeName = (descend component? depth type).map typeName
  components : ∀ depth inner, descend component? depth type = some inner →
    inner.dimensions + depth = type.dimensions ∧
      TypeName.parse inner.canonicalName = .ok ⟨type.elementType.name, inner.dimensions⟩
  apart : ∀ other : HeapClass, Dotted other.elementType.name.toList → other.canonicalName = type.canonicalName →
    other.elementType.name = type.elementType.name ∧ other.dimensions = type.dimensions

theorem reads_back (dotted : Dotted type.elementType.name.toList) : ReadsBack type where
  parses := parse_canonical dotted
  levels := fun depth => descend_map component_type_name depth type
  components := by
    intro depth inner found
    obtain ⟨same, levels⟩ := descend_levels found
    have parsed : TypeName.parse inner.canonicalName = .ok inner.typeName := parse_canonical (same.symm ▸ dotted)
    rw [typeName, same] at parsed
    exact ⟨levels, parsed⟩
  apart := by
    intro other proper same
    have parsed := parse_canonical proper
    rw [same, parse_canonical dotted] at parsed
    exact TypeName.mk.inj (Except.ok.inj parsed.symm)

theorem array_names_consistent (type : HeapClass) :
    (∀ id, Wraps type (arrayOver id type)) ∧
      (∀ element amount, Levels element amount type ↔ type.elementType = element ∧ type.dimensions = amount) ∧
      type.canonicalName.toList =
        type.elementType.name.toList ++ (List.replicate type.dimensions ['[', ']']).flatten ∧
      (∀ other : HeapClass, other.elementType.name = type.elementType.name → other.dimensions = type.dimensions →
        other.canonicalName = type.canonicalName) ∧
      (Stacked type → type.name = type.canonicalName) ∧
      (Dotted type.elementType.name.toList → ReadsBack type) := by
  refine ⟨fun id => wraps_array_over id type, fun element amount => levels_iff, ?_, ?_, stacked_name, reads_back⟩
  · exact render_append type.elementType.name type.dimensions
  · intro other named dimensions
    rw [canonicalName, named, dimensions]
    rfl

theorem renamed_array_names :
    let ints := HeapClass.primitive ⟨1⟩ "int"
    let renamed := HeapClass.array ⟨3⟩ "[[I" (.array ⟨2⟩ "[I" ints none) none
    let made := arrayOver ⟨3⟩ (arrayOver ⟨2⟩ ints)
    Dotted renamed.elementType.name.toList ∧ Levels ints 2 renamed ∧ Stacked made ∧ renamed.name ≠ renamed.canonicalName ∧
      made.name = renamed.canonicalName ∧ TypeName.parse renamed.canonicalName = .ok ⟨"int", 2⟩ := by
  intro ints renamed made
  have dotted : Dotted renamed.elementType.name.toList := (TypeName.binary_name_iff _).mp (by decide +kernel)
  have levels : Levels ints 2 renamed := .more ⟨3⟩ "[[I" none (.more ⟨2⟩ "[I" none (.none rfl))
  have stacked : Stacked made := .more ⟨3⟩ (.more ⟨2⟩ (.none rfl))
  obtain ⟨_, _, _, _, _, reads⟩ := array_names_consistent renamed
  obtain ⟨_, _, _, alike, named, _⟩ := array_names_consistent made
  refine ⟨dotted, levels, stacked, by decide, ?_, (reads dotted).parses⟩
  exact (named stacked).trans (alike renamed rfl rfl).symm

end HeapClass

end HeapCensus
