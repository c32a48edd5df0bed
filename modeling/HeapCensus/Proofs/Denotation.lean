import HeapCensus.Proofs.ClassRecord
import HeapCensus.Proofs.Counting
import Mathlib.Data.Set.Card

set_option autoImplicit false

namespace HeapCensus

def insertAll (types found : List HeapClass) : List HeapClass :=
  found.foldl (fun types type => insertClass type types) types

theorem mem_insert_class {type : HeapClass} {types : List HeapClass}
    (distinct : ∀ other ∈ types, other.id = type.id → other = type) (wanted : HeapClass) :
    wanted ∈ insertClass type types ↔ wanted ∈ types ∨ wanted = type := by
  unfold insertClass
  by_cases present : types.any fun other => other.id = type.id
  · rw [if_pos present]
    obtain ⟨other, member, same⟩ := List.any_eq_true.mp present
    obtain rfl := distinct other member (of_decide_eq_true same)
    constructor
    · exact .inl
    · rintro (held | rfl)
      · exact held
      · exact member
  · rw [if_neg present]
    simp

theorem nodup_insert_class {types : List HeapClass} (nodup : (types.map HeapClass.id).Nodup)
    (type : HeapClass) : ((insertClass type types).map HeapClass.id).Nodup := by
  unfold insertClass
  by_cases present : types.any fun other => other.id = type.id
  · rw [if_pos present]
    exact nodup
  · rw [if_neg present]
    refine SyntheticHeap.nodup_map_append nodup fun other member same => present ?_
    exact List.any_eq_true.mpr ⟨other, member, decide_eq_true same⟩

theorem nodup_insert_all {types : List HeapClass} (nodup : (types.map HeapClass.id).Nodup)
    (found : List HeapClass) : ((insertAll types found).map HeapClass.id).Nodup := by
  induction found generalizing types with
  | nil => exact nodup
  | cons type found ih => exact ih (nodup_insert_class nodup type)

theorem mem_of_insert_class {type wanted : HeapClass} {types : List HeapClass}
    (member : wanted ∈ insertClass type types) : wanted ∈ types ∨ wanted = type := by
  unfold insertClass at member
  by_cases present : types.any fun other => other.id = type.id
  · rw [if_pos present] at member
    exact .inl member
  · rw [if_neg present] at member
    simpa using member

theorem mem_of_insert_all {types found : List HeapClass} {wanted : HeapClass}
    (member : wanted ∈ insertAll types found) : wanted ∈ types ∨ wanted ∈ found := by
  induction found generalizing types with
  | nil => exact .inl member
  | cons type found ih =>
      rcases ih member with held | later
      · rcases mem_of_insert_class held with before | rfl
        · exact .inl before
        · exact .inr List.mem_cons_self
      · exact .inr (List.mem_cons_of_mem type later)

theorem length_insert_all_le (types found : List HeapClass) :
    (insertAll types found).length ≤ types.length + found.length := by
  induction found generalizing types with
  | nil => exact Nat.le_refl _
  | cons type found ih =>
      have one : (insertClass type types).length ≤ types.length + 1 := by
        unfold insertClass
        split <;> simp
      have all := ih (insertClass type types)
      rw [List.length_cons]
      change (insertAll (insertClass type types) found).length ≤ _
      omega

theorem mem_insert_all {known types found : List HeapClass}
    (distinct : ∀ first ∈ known, ∀ second ∈ known, first.id = second.id → first = second)
    (held : types ⊆ known) (added : found ⊆ known) (wanted : HeapClass) :
    wanted ∈ insertAll types found ↔ wanted ∈ types ∨ wanted ∈ found := by
  induction found generalizing types with
  | nil => simp [insertAll]
  | cons type found ih =>
      obtain ⟨own, others⟩ := List.cons_subset.mp added
      have one : ∀ other, other ∈ insertClass type types ↔ other ∈ types ∨ other = type :=
        mem_insert_class fun other member => distinct other (held member) type own
      have within : insertClass type types ⊆ known := by
        intro other member
        rcases (one other).mp member with before | rfl
        · exact held before
        · exact own
      change wanted ∈ insertAll (insertClass type types) found ↔ _
      rw [ih within others, one, List.mem_cons, or_assoc]

theorem HeapClass.element_of_plain {type : HeapClass} (plain : type.isArray = false) :
    type.elementType = type ∧ type.dimensions = 0 := by
  cases type with
  | plain => exact ⟨rfl, rfl⟩
  | array => cases plain

theorem HeapClass.element_of_component {type component : HeapClass}
    (made : type.component? = some component) :
    type.elementType = component.elementType ∧ type.dimensions = component.dimensions + 1 := by
  cases type with
  | plain => cases made
  | array id name part loader =>
      obtain rfl := Option.some.inj made
      exact ⟨rfl, rfl⟩

namespace SyntheticHeap

def LiveLoader (heap : SyntheticHeap) (id : ObjectId) : Prop :=
  ∃ object ∈ heap.objects, object.id = id ∧ heap.supertypes.Below object.type.id classLoader.id

/-- The types that a name without dimensions stands for. -/
def Denotes (heap : SyntheticHeap) (base : String) (type : HeapClass) : Prop :=
  if isPrimitiveName base then type ∈ primitives ∧ type.name = base
  else type ∈ heap.definitions ∧ type.name = base ∧
    ∀ loader, type.loader = some loader → heap.LiveLoader loader

/-- Arrays of so many levels over a class, as the table of arrays has them. -/
inductive Over (heap : SyntheticHeap) (root : HeapClass) : Nat → HeapClass → Prop
  | none : Over heap root 0 root
  | more {levels : Nat} {component array : HeapClass} :
      Over heap root levels component → (component.id, array) ∈ heap.arrays → Over heap root (levels + 1) array

section Levels

variable {heap after : SyntheticHeap} {root type : HeapClass} {levels : Nat}

theorem array_known {entry : ClassId × HeapClass} (listed : entry ∈ heap.arrays) : entry.2 ∈ heap.classes :=
  List.mem_append_left _ (List.mem_append_right _ (List.mem_map_of_mem listed))

theorem over_known (tower : heap.Over root levels type) (known : root ∈ heap.classes) : type ∈ heap.classes := by
  cases tower with
  | none => exact known
  | more _ listed => exact array_known listed

theorem over_holds (holds : Holds heap after) (tower : heap.Over root levels type) : after.Over root levels type := by
  induction tower with
  | none => exact .none
  | more _ listed ih => exact .more ih (holds.arrays listed)

theorem over_unique (tabled : Tabled heap) {other : HeapClass} (first : heap.Over root levels type)
    (second : heap.Over root levels other) : type = other := by
  induction first generalizing other with
  | none =>
      cases second
      rfl
  | more _ listed ih =>
      cases second with
      | more tower present =>
          obtain rfl := ih tower
          exact congrArg Prod.snd (List.inj_on_of_nodup_map tabled.keyed listed present rfl)

theorem over_root (tabled : Tabled heap) {other : HeapClass} (known : root ∈ heap.classes)
    (own : other ∈ heap.classes) (first : heap.Over root levels type) (second : heap.Over other levels type) :
    root = other := by
  induction first with
  | none =>
      cases second
      rfl
  | more inner listed ih =>
      cases second with
      | more tower present =>
          -- The id of the array tells its entry, and the entry tells the id of the component.
          have same := List.inj_on_of_nodup_map tabled.numbered listed present rfl
          obtain rfl := tabled.distinct (over_known inner known) (over_known tower own) (congrArg Prod.fst same)
          exact ih tower

end Levels

/-- No definition is an array, and every array was made over a class of the heap. -/
structure Homegrown (heap : SyntheticHeap) : Prop where
  plain : ∀ type ∈ heap.definitions, type.isArray = false
  own : ∀ entry ∈ heap.arrays, ∃ component ∈ heap.classes,
    component.id = entry.1 ∧ entry.2.component? = some component

theorem homegrown_recorded {past : List Deed} {heap : SyntheticHeap} (kept : Kept past heap)
    (plain : ∀ wanted type, .defined wanted type ∈ past → type.isArray = false)
    (own : ∀ component array, .arrayed component array ∈ past → component ∈ heap.classes) : Homegrown heap := by
  constructor
  · intro type member
    rcases kept.defined.origin type member with root | ⟨before, wanted, later, rfl, _⟩
    · have plainRoots : ∀ type ∈ new.definitions, type.isArray = false := by decide
      exact plainRoots type root
    · exact plain wanted type (List.mem_append_right _ List.mem_cons_self)
  · intro entry listed
    obtain ⟨component, made, same, shape⟩ := kept.interned.first entry listed
    exact ⟨component, own component entry.2 made, same, congrArg HeapClass.component? shape⟩

theorem homegrown_array_of {heap : SyntheticHeap} (homegrown : Homegrown heap) {component : HeapClass}
    (own : component ∈ heap.classes) : Homegrown (heap.arrayOf component).2 := by
  have older := classes_grow (grows_array_of heap component)
  cases found : heap.arrays.find? fun entry => entry.1 = component.id with
  | some entry =>
      simp only [arrayOf, found]
      exact homegrown
  | none =>
      simp only [arrayOf, found] at older ⊢
      refine ⟨homegrown.plain, fun entry member => ?_⟩
      rcases List.mem_append.mp member with before | added
      · obtain ⟨part, known, same, made⟩ := homegrown.own entry before
        exact ⟨part, older known, same, made⟩
      · obtain rfl := List.mem_singleton.mp added
        exact ⟨component, older own, rfl, rfl⟩

theorem primitive_plain {type : HeapClass} (member : type ∈ primitives) : type.isArray = false := by
  have all : ∀ type ∈ primitives, type.isArray = false := by decide
  exact all type member

theorem array_entry {heap : SyntheticHeap} (homegrown : Homegrown heap) {id : ClassId} {name : String}
    {component : HeapClass} {loader : Option ObjectId}
    (member : HeapClass.array id name component loader ∈ heap.classes) :
    component ∈ heap.classes ∧ (component.id, HeapClass.array id name component loader) ∈ heap.arrays := by
  rcases List.mem_append.mp member with known | primitive
  · rcases List.mem_append.mp known with defined | listed
    · exact nomatch homegrown.plain _ defined
    · obtain ⟨⟨key, array⟩, held, rfl⟩ := List.mem_map.mp listed
      obtain ⟨part, own, rfl, made⟩ := homegrown.own _ held
      obtain rfl := Option.some.inj made
      exact ⟨own, held⟩
  · exact nomatch primitive_plain primitive

theorem levels_of_over {heap : SyntheticHeap} (tabled : Tabled heap) (homegrown : Homegrown heap)
    {root type : HeapClass} {levels : Nat} (known : root ∈ heap.classes) (plain : root.isArray = false)
    (tower : heap.Over root levels type) : type.elementType = root ∧ type.dimensions = levels := by
  induction tower with
  | none => exact HeapClass.element_of_plain plain
  | more inner listed ih =>
      obtain ⟨element, dimensions⟩ := ih
      -- The component in the array and the one further in have one id, and both are of the heap.
      obtain ⟨component, own, same, made⟩ := homegrown.own _ listed
      obtain rfl := tabled.distinct own (over_known inner known) same
      obtain ⟨outer, more⟩ := HeapClass.element_of_component made
      exact ⟨outer.trans element, by rw [more, dimensions]⟩

theorem over_of_levels {heap : SyntheticHeap} (homegrown : Homegrown heap) {type : HeapClass}
    (known : type ∈ heap.classes) : heap.Over type.elementType type.dimensions type := by
  induction type with
  | plain => exact .none
  | array id name component loader ih =>
      obtain ⟨own, listed⟩ := array_entry homegrown known
      exact .more (ih own) listed

/-- The arrays of so many levels over some classes, each of them once. -/
structure ArraysOver (heap : SyntheticHeap) (roots : HeapClass → Prop) (levels : Nat)
    (types : List HeapClass) : Prop where
  known : ∀ root, roots root → root ∈ heap.classes
  distinct : (types.map HeapClass.id).Nodup
  right : ∀ type ∈ types, ∃ root, roots root ∧ heap.Over root levels type
  whole : ∀ root, roots root → ∃ type ∈ types, heap.Over root levels type

/-- New arrays may be made. Below any class but the root there is what was there before. -/
structure Unmoved (heap after : SyntheticHeap) : Prop where
  objects : after.objects = heap.objects
  below : ∀ low high, high ≠ objectClass.id →
    (after.supertypes.Below low high ↔ heap.supertypes.Below low high)

theorem unmoved_alike {heap after : SyntheticHeap} (alike : Alike heap after) : Unmoved heap after := by
  refine ⟨alike.objects, fun low high _ => ?_⟩
  rw [alike.supertypes]

theorem unmoved_trans {heap between after : SyntheticHeap} (first : Unmoved heap between)
    (second : Unmoved between after) : Unmoved heap after :=
  ⟨second.objects.trans first.objects,
    fun low high other => (second.below low high other).trans (first.below low high other)⟩

theorem unmoved_array_of {heap : SyntheticHeap} (tabled : Tabled heap) (component : HeapClass) :
    Unmoved heap (heap.arrayOf component).2 := by
  cases found : heap.arrays.find? fun entry => entry.1 = component.id with
  | some entry =>
      simp only [arrayOf, found]
      exact unmoved_alike ⟨rfl, rfl⟩
  | none =>
      simp only [arrayOf, found]
      refine ⟨rfl, fun low high other => ?_⟩
      exact SupertypeTable.below_append _ tabled.root_highest other low

theorem any_unmoved {heap after : SyntheticHeap} (unmoved : Unmoved heap after) {type : HeapClass}
    (other : type.id ≠ objectClass.id) (bound : UInt32) : after.any type bound = heap.any type bound := by
  rw [any_eq_take, any_eq_take, below, below, unmoved.objects]
  refine congrArg (List.take bound.toNat) (List.filter_congr fun object _ => ?_)
  rw [Bool.eq_iff_iff, isSubtype, isSubtype, SupertypeTable.is_subtype_iff, SupertypeTable.is_subtype_iff]
  exact unmoved.below object.type.id type.id other

theorem live_loader_unmoved {heap after : SyntheticHeap} (unmoved : Unmoved heap after) (id : ObjectId) :
    after.LiveLoader id ↔ heap.LiveLoader id := by
  have other : classLoader.id ≠ objectClass.id := by decide
  simp only [LiveLoader, unmoved.objects, unmoved.below _ _ other]

/-- New arrays may be made over classes of the heap, but nothing changes that a name could denote. -/
structure Undisturbed (heap after : SyntheticHeap) : Prop where
  grows : Grows heap after
  definitions : after.definitions = heap.definitions
  loaders : ∀ id, after.LiveLoader id ↔ heap.LiveLoader id
  homegrown : Homegrown heap → Homegrown after

theorem undisturbed_refl (heap : SyntheticHeap) : Undisturbed heap heap :=
  ⟨grows_refl heap, rfl, fun _ => Iff.rfl, fun homegrown => homegrown⟩

theorem undisturbed_trans {heap between after : SyntheticHeap} (first : Undisturbed heap between)
    (second : Undisturbed between after) : Undisturbed heap after :=
  ⟨grows_trans first.grows second.grows, second.definitions.trans first.definitions,
    fun id => (second.loaders id).trans (first.loaders id),
    fun homegrown => second.homegrown (first.homegrown homegrown)⟩

theorem undisturbed_calls (heap : SyntheticHeap) (calls : Nat) :
    Undisturbed heap { heap with calls := calls } :=
  ⟨grows_calls heap calls, rfl, fun _ => Iff.rfl, fun homegrown => ⟨homegrown.plain, homegrown.own⟩⟩

theorem undisturbed_array_of {heap : SyntheticHeap} (tabled : Tabled heap) {component : HeapClass}
    (own : component ∈ heap.classes) : Undisturbed heap (heap.arrayOf component).2 := by
  refine ⟨grows_array_of heap component, ?_, live_loader_unmoved (unmoved_array_of tabled component),
    fun homegrown => homegrown_array_of homegrown own⟩
  cases found : heap.arrays.find? fun entry => entry.1 = component.id with
  | some entry => simp only [arrayOf, found]
  | none => simp only [arrayOf, found]

def arraysOf : SyntheticHeap → List HeapClass → List HeapClass × SyntheticHeap
  | heap, [] => ([], heap)
  | heap, component :: components =>
      let made := heap.arrayOf component
      let others := arraysOf made.2 components
      (made.1 :: others.1, others.2)

/-- Arrays that stand in the table, one over each component. -/
structure Arrayed (heap : SyntheticHeap) (components arrays : List HeapClass) : Prop where
  each : ∀ component ∈ components, ∃ array ∈ arrays, (component.id, array) ∈ heap.arrays
  only : ∀ array ∈ arrays, ∃ component ∈ components, (component.id, array) ∈ heap.arrays
  amount : arrays.length = components.length

theorem arrayed_cons {heap : SyntheticHeap} {component array : HeapClass} {components arrays : List HeapClass}
    (first : (component.id, array) ∈ heap.arrays) (rest : Arrayed heap components arrays) :
    Arrayed heap (component :: components) (array :: arrays) := by
  constructor
  · intro other member
    rcases List.mem_cons.mp member with rfl | later
    · exact ⟨array, List.mem_cons_self, first⟩
    · obtain ⟨made, held, listed⟩ := rest.each other later
      exact ⟨made, List.mem_cons_of_mem _ held, listed⟩
  · intro other member
    rcases List.mem_cons.mp member with rfl | later
    · exact ⟨component, List.mem_cons_self, first⟩
    · obtain ⟨part, held, listed⟩ := rest.only other later
      exact ⟨part, List.mem_cons_of_mem _ held, listed⟩
  · exact congrArg (· + 1) rest.amount

theorem arrays_of_made {heap : SyntheticHeap} (tabled : Tabled heap) {components : List HeapClass}
    (own : components ⊆ heap.classes) :
    Undisturbed heap (arraysOf heap components).2 ∧
      Arrayed (arraysOf heap components).2 components (arraysOf heap components).1 := by
  induction components generalizing heap with
  | nil => exact ⟨undisturbed_refl heap, nofun, nofun, rfl⟩
  | cons component components ih =>
      obtain ⟨first, others⟩ := List.cons_subset.mp own
      have made := grows_array_of heap component
      obtain ⟨undisturbed, rest⟩ := ih (tabled_grows tabled made) (List.Subset.trans others (classes_grow made))
      have listed := (holds_grows undisturbed.grows).arrays (array_of_entry heap component)
      exact ⟨undisturbed_trans (undisturbed_array_of tabled first) undisturbed, arrayed_cons listed rest⟩

theorem unmoved_arrays_of {heap : SyntheticHeap} (tabled : Tabled heap) (components : List HeapClass) :
    Unmoved heap (arraysOf heap components).2 := by
  induction components generalizing heap with
  | nil => exact unmoved_alike ⟨rfl, rfl⟩
  | cons component components ih =>
      have made := tabled_grows tabled (grows_array_of heap component)
      exact unmoved_trans (unmoved_array_of tabled component) (ih made)

variable {heap after : SyntheticHeap} {roots : HeapClass → Prop} {levels : Nat}
  {types components arrays : List HeapClass}

theorem arrays_over_made (tabled : Tabled after) (inner : ArraysOver heap roots levels components)
    (grows : Grows heap after) (arrayed : Arrayed after components arrays) :
    ArraysOver after roots (levels + 1) (insertAll [] arrays) := by
  have holds := holds_grows grows
  have known : arrays ⊆ after.classes := by
    intro array member
    obtain ⟨_, _, listed⟩ := arrayed.only array member
    exact array_known listed
  have members : ∀ type, type ∈ insertAll [] arrays ↔ type ∈ arrays := by
    intro type
    rw [mem_insert_all (fun first held second present => tabled.distinct held present)
      (List.nil_subset _) known]
    simp
  constructor
  · exact fun root denoted => classes_grow grows (inner.known root denoted)
  · have none : (([] : List HeapClass).map HeapClass.id).Nodup := List.nodup_nil
    exact nodup_insert_all none arrays
  · intro type member
    obtain ⟨component, held, listed⟩ := arrayed.only type ((members type).mp member)
    obtain ⟨root, denoted, tower⟩ := inner.right component held
    exact ⟨root, denoted, .more (over_holds holds tower) listed⟩
  · intro root denoted
    obtain ⟨component, held, tower⟩ := inner.whole root denoted
    obtain ⟨array, member, listed⟩ := arrayed.each component held
    exact ⟨array, (members array).mpr member, .more (over_holds holds tower) listed⟩

theorem arrays_over_mem_iff (tabled : Tabled heap) (given : ArraysOver heap roots levels types)
    (type : HeapClass) : type ∈ types ↔ ∃ root, roots root ∧ heap.Over root levels type := by
  constructor
  · exact given.right type
  · rintro ⟨root, denoted, tower⟩
    obtain ⟨other, member, again⟩ := given.whole root denoted
    rw [over_unique tabled tower again]
    exact member

theorem arrays_over_amount (tabled : Tabled heap) (given : ArraysOver heap roots levels types) :
    types.length = {root | roots root}.ncard := by
  choose array member tower using given.whole
  have nodup : types.Nodup := List.Nodup.of_map _ given.distinct
  rw [← List.toFinset_card_of_nodup nodup, ← Set.ncard_coe_finset]
  symm
  apply Set.ncard_congr array
  · intro root denoted
    exact List.mem_toFinset.mpr (member root denoted)
  · intro first second denoted again same
    have other := tower second again
    rw [← same] at other
    exact over_root tabled (given.known first denoted) (given.known second again) (tower first denoted) other
  · intro type held
    obtain ⟨root, denoted, found⟩ := given.right type (List.mem_toFinset.mp held)
    exact ⟨root, denoted, over_unique tabled (tower root denoted) found⟩

theorem arrays_over_again {found : List HeapClass} (tabled : Tabled after) (grows : Grows heap after)
    (given : ArraysOver heap roots levels types) (again : ArraysOver after roots levels found) :
    found.Perm types := by
  have holds := holds_grows grows
  refine (List.perm_ext_iff_of_nodup (List.Nodup.of_map _ again.distinct)
    (List.Nodup.of_map _ given.distinct)).mpr fun type => ?_
  constructor
  · intro member
    obtain ⟨root, denoted, tower⟩ := again.right type member
    obtain ⟨other, present, before⟩ := given.whole root denoted
    rw [over_unique tabled tower (over_holds holds before)]
    exact present
  · intro member
    obtain ⟨root, denoted, tower⟩ := given.right type member
    exact (arrays_over_mem_iff tabled again type).mpr ⟨root, denoted, over_holds holds tower⟩

theorem definition_iff (tabled : Tabled heap) (loader : Option ObjectId) (name : String)
    (type : HeapClass) :
    heap.definition? loader name = some type ↔ type ∈ heap.definitions ∧ type.loader = loader ∧ type.name = name := by
  obtain ⟨_, kept⟩ := tabled
  constructor
  · intro found
    obtain ⟨member, key⟩ := found_key found
    exact ⟨member, congrArg Prod.fst key, congrArg Prod.snd key⟩
  · rintro ⟨member, rfl, rfl⟩
    exact definition_of_key kept.defined member

theorem primitive_iff (name : String) (type : HeapClass) :
    primitive? name = some type ↔ type ∈ primitives ∧ type.name = name := by
  constructor
  · intro found
    exact ⟨List.mem_of_find?_eq_some found, by simpa using List.find?_some found⟩
  · rintro ⟨member, rfl⟩
    have found : ∀ type ∈ primitives, primitive? type.name = some type := by decide
    exact found type member

theorem load_iff (heap : SyntheticHeap) {object : HeapObject} (below : heap.isSubtype object.type classLoader)
    (base : String) (type : HeapClass) :
    (heap.load (some object) base).toOption = some type ↔
      heap.definition? (some object.id) base = some type ∨
        (heap.definition? (some object.id) base = none ∧ heap.definition? none base = some type) := by
  rw [load, below]
  cases heap.definition? (some object.id) base with
  | some own => simp [Except.toOption]
  | none => cases heap.definition? none base <;> simp [Except.toOption]

theorem load_bootstrap (heap : SyntheticHeap) (base : String) :
    (heap.load none base).toOption = heap.definition? none base := by
  rw [load]
  cases heap.definition? none base <;> rfl

theorem load_defined {heap : SyntheticHeap} {loader : Option HeapObject} {name : String} {type : HeapClass}
    (found : (heap.load loader name).toOption = some type) : type ∈ heap.definitions := by
  have bootstrap : (heap.load none name).toOption = some type → type ∈ heap.definitions := by
    rw [load_bootstrap]
    exact List.mem_of_find?_eq_some
  cases loader with
  | none => exact bootstrap found
  | some object =>
      cases below : heap.isSubtype object.type classLoader with
      | false =>
          rw [load, below] at found
          cases found
      | true =>
          rcases (load_iff heap below name type).mp found with own | ⟨_, shared⟩
          · exact List.mem_of_find?_eq_some own
          · exact List.mem_of_find?_eq_some shared

def foundBy (heap : SyntheticHeap) (base : String) : List HeapClass :=
  (heap.below classLoader).filterMap fun loader => (heap.load (some loader) base).toOption

theorem live_loader_iff (heap : SyntheticHeap) (id : ObjectId) :
    heap.LiveLoader id ↔ ∃ object ∈ heap.below classLoader, object.id = id := by
  unfold LiveLoader below isSubtype
  simp only [List.mem_filter, SupertypeTable.is_subtype_iff]
  constructor
  · rintro ⟨object, member, same, below⟩
    exact ⟨object, ⟨member, below⟩, same⟩
  · rintro ⟨object, ⟨member, below⟩, same⟩
    exact ⟨object, member, same, below⟩

theorem mem_found_iff (heap : SyntheticHeap) (base : String) (type : HeapClass) :
    type ∈ heap.foundBy base ↔ ∃ object ∈ heap.below classLoader,
      heap.definition? (some object.id) base = some type ∨
        (heap.definition? (some object.id) base = none ∧ heap.definition? none base = some type) := by
  rw [foundBy, List.mem_filterMap]
  constructor
  · rintro ⟨object, member, loaded⟩
    exact ⟨object, member, (load_iff heap (List.mem_filter.mp member).2 base type).mp loaded⟩
  · rintro ⟨object, member, found⟩
    exact ⟨object, member, (load_iff heap (List.mem_filter.mp member).2 base type).mpr found⟩

theorem denotes_iff_found (tabled : Tabled heap) {base : String} (other : isPrimitiveName base = false)
    (type : HeapClass) :
    heap.Denotes base type ↔ heap.definition? none base = some type ∨ type ∈ heap.foundBy base := by
  rw [Denotes, other, if_neg Bool.false_ne_true, mem_found_iff]
  constructor
  · rintro ⟨member, named, live⟩
    cases loader : type.loader with
    | none => exact .inl ((definition_iff tabled none base type).mpr ⟨member, loader, named⟩)
    | some id =>
        obtain ⟨object, below, rfl⟩ := (live_loader_iff heap id).mp (live id loader)
        exact .inr ⟨object, below, .inl ((definition_iff tabled _ base type).mpr ⟨member, loader, named⟩)⟩
  · have bootstrap : heap.definition? none base = some type →
        type ∈ heap.definitions ∧ type.name = base ∧
          ∀ loader, type.loader = some loader → heap.LiveLoader loader := by
      intro found
      obtain ⟨member, loader, named⟩ := (definition_iff tabled none base type).mp found
      exact ⟨member, named, fun id same => nomatch loader.symm.trans same⟩
    rintro (found | ⟨object, below, own | ⟨_, found⟩⟩)
    · exact bootstrap found
    · obtain ⟨member, loader, named⟩ := (definition_iff tabled _ base type).mp own
      refine ⟨member, named, fun id same => (live_loader_iff heap id).mpr ⟨object, below, ?_⟩⟩
      exact Option.some.inj (loader.symm.trans same)
    · exact bootstrap found

theorem denotes_known {base : String} {type : HeapClass} (denoted : heap.Denotes base type) :
    type ∈ heap.classes ∧ type.name = base := by
  unfold Denotes at denoted
  split at denoted
  · obtain ⟨member, named⟩ := denoted
    exact ⟨List.mem_append_right _ member, named⟩
  · obtain ⟨member, named, _⟩ := denoted
    exact ⟨List.mem_append_left _ (List.mem_append_left _ member), named⟩

theorem denotes_plain (homegrown : Homegrown heap) {base : String} {type : HeapClass}
    (denoted : heap.Denotes base type) : type.isArray = false := by
  unfold Denotes at denoted
  split at denoted
  · exact primitive_plain denoted.1
  · exact homegrown.plain type denoted.1

theorem arrays_over_denoted {base : String} (distinct : (types.map HeapClass.id).Nodup)
    (members : ∀ type, type ∈ types ↔ heap.Denotes base type) :
    ArraysOver heap (heap.Denotes base) 0 types := by
  refine ⟨fun root denoted => (denotes_known denoted).1, distinct, fun type member => ?_, fun root denoted => ?_⟩
  · exact ⟨type, (members type).mp member, .none⟩
  · exact ⟨root, (members root).mpr denoted, .none⟩

theorem arrays_over_found (tabled : Tabled heap) {base : String} (other : isPrimitiveName base = false) :
    ArraysOver heap (heap.Denotes base) 0
      (insertAll (heap.definition? none base).toList (heap.foundBy base)) := by
  have denoted : ∀ type, type ∈ (heap.definition? none base).toList ∨ type ∈ heap.foundBy base ↔
      heap.Denotes base type := by
    intro type
    rw [denotes_iff_found tabled other, Option.mem_toList]
  have known : ∀ type, type ∈ (heap.definition? none base).toList ∨ type ∈ heap.foundBy base →
      type ∈ heap.classes :=
    fun type found => (denotes_known ((denoted type).mp found)).1
  have nodup : ((heap.definition? none base).toList.map HeapClass.id).Nodup := by
    cases heap.definition? none base <;> simp
  refine arrays_over_denoted (nodup_insert_all nodup _) fun type => ?_
  rw [mem_insert_all (fun _ held _ present => tabled.distinct held present)
    (fun type member => known type (.inl member)) fun type member => known type (.inr member)]
  exact denoted type

theorem arrays_over_primitive (heap : SyntheticHeap) {base : String} (primitive : isPrimitiveName base = true) :
    ArraysOver heap (heap.Denotes base) 0 (primitive? base).toList := by
  refine arrays_over_denoted ?_ fun type => ?_
  · cases primitive? base <;> simp
  · rw [Denotes, primitive, if_pos rfl, ← primitive_iff, Option.mem_toList]

theorem arrays_over_calls {base : String}
    (given : ArraysOver heap (heap.Denotes base) levels types) (calls : Nat) :
    ArraysOver { heap with calls := calls } (heap.Denotes base) levels types := by
  have holds := holds_grows (grows_calls heap calls)
  refine ⟨given.known, given.distinct, fun type member => ?_, fun root denoted => ?_⟩
  · obtain ⟨root, denoted, tower⟩ := given.right type member
    exact ⟨root, denoted, over_holds holds tower⟩
  · obtain ⟨type, member, tower⟩ := given.whole root denoted
    exact ⟨type, member, over_holds holds tower⟩

theorem denotes_alike (definitions : after.definitions = heap.definitions)
    (loaders : ∀ id, after.LiveLoader id ↔ heap.LiveLoader id) (base : String) :
    after.Denotes base = heap.Denotes base := by
  funext type
  unfold Denotes
  simp only [definitions, loaders]

end SyntheticHeap

end HeapCensus
