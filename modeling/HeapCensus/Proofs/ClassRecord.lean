import HeapCensus.Proofs.HeapOperations
import HeapCensus.Proofs.Supertypes
import Mathlib.Data.List.Nodup

set_option autoImplicit false

namespace HeapCensus.SyntheticHeap

theorem nodup_map_append {α κ : Type} {key : α → κ} {items : List α} {item : α}
    (nodup : (items.map key).Nodup) (absent : ∀ other ∈ items, key other ≠ key item) :
    ((items ++ [item]).map key).Nodup := by
  rw [List.map_append, List.nodup_append]
  refine ⟨nodup, List.nodup_singleton _, ?_⟩
  intro first held second added same
  obtain ⟨other, member, rfl⟩ := List.mem_map.mp held
  exact absent other member (same.trans (List.mem_singleton.mp added))

def keyOf (type : HeapClass) : Option ObjectId × String := (type.loader, type.name)

variable {past : List Deed} {heap after : SyntheticHeap} {deed : Deed}

/-- The ids of objects are given out in ascending order, and a released one is not taken back. -/
structure Numbered (past : List Deed) (heap : SyntheticHeap) : Prop where
  distinct : ((allocated past).map HeapObject.id).Nodup
  bounded : ∀ object ∈ allocated past, object.id.value < heap.nextObject
  live : heap.objects.Sublist (allocated past)

theorem allocated_append (past : List Deed) (deed : Deed) :
    allocated (past ++ [deed]) = allocated past ++ deed.object?.toList := by
  rw [allocated, List.filterMap_append]
  cases deed <;> rfl

theorem numbered_does (kept : Numbered past heap) (does : Does heap deed after) :
    Numbered (past ++ [deed]) after := by
  cases does with
  | known | made | interned | arrayed | configured =>
      constructor <;> rw [allocated_append, Deed.object?, Option.toList_none, List.append_nil]
      · exact kept.distinct
      · exact kept.bounded
      · exact kept.live
  | allocated type =>
      constructor <;> rw [allocated_append, Deed.object?, Option.toList_some]
      · apply nodup_map_append kept.distinct
        intro other member same
        have bounded := kept.bounded other member
        rw [same] at bounded
        exact Nat.lt_irrefl _ bounded
      · intro object member
        rcases List.mem_append.mp member with before | added
        · exact Nat.lt_succ_of_lt (kept.bounded object before)
        · obtain rfl := List.mem_singleton.mp added
          exact Nat.lt_succ_self _
      · exact kept.live.append (List.Sublist.refl _)
  | released object =>
      constructor <;> rw [allocated_append, Deed.object?, Option.toList_none, List.append_nil]
      · exact kept.distinct
      · exact kept.bounded
      · exact List.filter_sublist.trans kept.live

/-- The ids of classes are given out in ascending order too, and no class is ever taken away. -/
structure Apart (heap : SyntheticHeap) : Prop where
  distinct : (heap.classes.map HeapClass.id).Nodup
  bounded : ∀ type ∈ heap.classes, type.id.value < heap.nextClass

theorem apart_risen (type : HeapClass) (kept : Apart heap) (fresh : type.id = ⟨heap.nextClass⟩)
    (next : after.nextClass = heap.nextClass + 1) (grown : after.classes.Perm (type :: heap.classes)) :
    Apart after := by
  constructor
  · rw [(grown.map HeapClass.id).nodup_iff, List.map_cons, List.nodup_cons]
    apply And.intro _ kept.distinct
    intro member
    obtain ⟨other, held, same⟩ := List.mem_map.mp member
    have bounded := kept.bounded other held
    rw [same, fresh] at bounded
    exact Nat.lt_irrefl _ bounded
  · intro other member
    rw [next]
    rcases List.mem_cons.mp (grown.mem_iff.mp member) with rfl | before
    · rw [fresh]
      exact Nat.lt_succ_self _
    · exact Nat.lt_succ_of_lt (kept.bounded other before)

theorem apart_does (kept : Apart heap) (does : Does heap deed after) : Apart after := by
  cases does with
  | known | interned | allocated | released | configured => exact ⟨kept.distinct, kept.bounded⟩
  | @made wanted absent =>
      apply apart_risen _ kept (HeapClass.id_shaped _ _ _ _) rfl
      simp only [classes, List.append_assoc, List.singleton_append]
      exact List.perm_middle
  | @arrayed component absent =>
      apply apart_risen (HeapClass.arrayOver ⟨heap.nextClass⟩ component) kept rfl rfl
      simp only [classes, List.map_append, List.map_cons, List.map_nil, List.append_assoc,
        List.singleton_append]
      rw [← List.append_assoc, ← List.append_assoc]
      exact List.perm_middle

/-- A row is never written again, and every way up from a class ends at the root. -/
structure Rooted (heap : SyntheticHeap) : Prop where
  bounded : ∀ row ∈ heap.supertypes, row.1.value < heap.nextClass
  below : ∀ type ∈ heap.definitions ++ heap.arrays.map (·.2),
    heap.supertypes.Below type.id objectClass.id
  roots : new.supertypes <+: heap.supertypes

theorem row_absent (kept : Rooted heap) :
    heap.supertypes.find? (fun entry => entry.1 = ⟨heap.nextClass⟩) = none := by
  apply List.find?_eq_none.mpr
  intro entry member same
  have bounded := kept.bounded entry member
  rw [of_decide_eq_true same] at bounded
  exact Nat.lt_irrefl _ bounded

theorem row_risen (kept : Rooted heap) (row : List ClassId) :
    (heap.risen row).supertypes.find? (fun entry => entry.1 = ⟨heap.nextClass⟩) =
      some (⟨heap.nextClass⟩, row) := by
  rw [risen, List.find?_append, row_absent kept]
  simp

theorem row_kept {id : ClassId} {held : ClassId × List ClassId} (row : List ClassId)
    (found : heap.supertypes.find? (fun entry => entry.1 = id) = some held) :
    (heap.risen row).supertypes.find? (fun entry => entry.1 = id) = some held := by
  rw [risen, List.find?_append, found]
  rfl

theorem below_risen {low high : ClassId} (row : List ClassId) (below : heap.supertypes.Below low high) :
    (heap.risen row).supertypes.Below low high :=
  Relation.ReflTransGen.mono (fun _ _ rises => (SupertypeTable.rises_append _ _ _ _).mpr (.inl rises)) _ _
    below

theorem rooted_risen {row : List ClassId} (type : HeapClass) (kept : Rooted heap)
    (fresh : type.id = ⟨heap.nextClass⟩) (rooted : objectClass.id ∈ row)
    (next : after.nextClass = heap.nextClass + 1) (rows : after.supertypes = (heap.risen row).supertypes)
    (grown : ∀ other ∈ after.definitions ++ after.arrays.map (·.2),
      other = type ∨ other ∈ heap.definitions ++ heap.arrays.map (·.2)) :
    Rooted after := by
  constructor
  · intro entry member
    rw [next]
    rw [rows] at member
    rcases List.mem_append.mp member with before | added
    · exact Nat.lt_succ_of_lt (kept.bounded entry before)
    · obtain rfl := List.mem_singleton.mp added
      exact Nat.lt_succ_self _
  · intro other member
    rw [rows]
    rcases grown other member with rfl | before
    · rw [fresh]
      exact .single ⟨_, row_risen kept row, rooted⟩
    · exact below_risen row (kept.below other before)
  · rw [rows]
    exact kept.roots.trans (List.prefix_append _ _)

theorem rooted_does (kept : Rooted heap) (does : Does heap deed after) : Rooted after := by
  cases does with
  | known | interned | allocated | released | configured => exact ⟨kept.bounded, kept.below, kept.roots⟩
  | @made wanted absent =>
      have root : objectClass.id ∈ wanted.row := List.mem_append_right _ (List.mem_singleton.mpr rfl)
      refine rooted_risen (wanted.made ⟨heap.nextClass⟩) kept (HeapClass.id_shaped _ _ _ _) root rfl rfl ?_
      intro other member
      simp only [List.mem_append, List.mem_singleton] at member ⊢
      tauto
  | @arrayed component absent =>
      have root : objectClass.id ∈ [objectClass.id] := List.mem_singleton.mpr rfl
      refine rooted_risen (HeapClass.arrayOver ⟨heap.nextClass⟩ component) kept rfl root rfl rfl ?_
      intro other member
      simp only [List.map_append, List.map_cons, List.map_nil, List.mem_append, List.mem_singleton] at member ⊢
      tauto

/-- The first definition of a key decides about its type, its kind and its supertypes. -/
def Origin (past : List Deed) (heap : SyntheticHeap) (type : HeapClass) : Prop :=
  ∃ before wanted later, past = before ++ .defined wanted type :: later ∧
    (∀ earlier other, .defined earlier other ∈ before → earlier.key ≠ wanted.key) ∧
    type = wanted.made type.id ∧
    heap.supertypes.find? (fun row => row.1 = type.id) = some (type.id, wanted.row)

structure Defined (past : List Deed) (heap : SyntheticHeap) : Prop where
  keys : (heap.definitions.map keyOf).Nodup
  roots : new.definitions <+: heap.definitions
  given : ∀ wanted type, .defined wanted type ∈ past → type ∈ heap.definitions ∧ keyOf type = wanted.key
  origin : ∀ type ∈ heap.definitions, type ∈ new.definitions ∨ Origin past heap type

theorem found_key {loader : Option ObjectId} {name : String} {type : HeapClass}
    (found : heap.definition? loader name = some type) :
    type ∈ heap.definitions ∧ keyOf type = (loader, name) := by
  have named := List.find?_some found
  rw [Bool.and_eq_true, decide_eq_true_eq, decide_eq_true_eq] at named
  exact ⟨List.mem_of_find?_eq_some found, Prod.ext named.1 named.2⟩

theorem unknown_key {loader : Option ObjectId} {name : String} (absent : heap.definition? loader name = none)
    {type : HeapClass} (member : type ∈ heap.definitions) : keyOf type ≠ (loader, name) := by
  intro key
  apply List.find?_eq_none.mp absent type member
  rw [Bool.and_eq_true, decide_eq_true_eq, decide_eq_true_eq]
  exact ⟨congrArg Prod.fst key, congrArg Prod.snd key⟩

theorem origin_later {type : HeapClass} (deed : Deed) (origin : Origin past heap type)
    (rows : ∀ held, heap.supertypes.find? (fun row => row.1 = type.id) = some held →
      after.supertypes.find? (fun row => row.1 = type.id) = some held) :
    Origin (past ++ [deed]) after type := by
  obtain ⟨before, wanted, later, rfl, first, made, row⟩ := origin
  exact ⟨before, wanted, later ++ [deed], List.append_assoc _ _ _, first, made, rows _ row⟩

theorem made_key (wanted : Definition) (id : ClassId) : keyOf (wanted.made id) = wanted.key :=
  Prod.ext (HeapClass.loader_shaped _ _ _ _) (HeapClass.name_shaped _ _ _ _)

theorem defined_kept (kept : Defined past heap) (definitions : after.definitions = heap.definitions)
    (rows : ∀ id held, heap.supertypes.find? (fun row => row.1 = id) = some held →
      after.supertypes.find? (fun row => row.1 = id) = some held)
    (silent : ∀ wanted type, deed = .defined wanted type → type ∈ heap.definitions ∧ keyOf type = wanted.key) :
    Defined (past ++ [deed]) after := by
  constructor
  · rw [definitions]
    exact kept.keys
  · rw [definitions]
    exact kept.roots
  · intro wanted type member
    rw [definitions]
    rcases List.mem_append.mp member with before | now
    · exact kept.given wanted type before
    · exact silent wanted type (List.mem_singleton.mp now).symm
  · intro type member
    rw [definitions] at member
    rcases kept.origin type member with root | origin
    · exact .inl root
    · exact .inr (origin_later deed origin (rows type.id))

theorem defined_does (kept : Defined past heap) (rooted : Rooted heap) (does : Does heap deed after) :
    Defined (past ++ [deed]) after := by
  cases does with
  | @known wanted type found =>
      refine defined_kept kept rfl (fun _ _ held => held) ?_
      rintro _ _ ⟨⟩
      exact found_key found
  | interned | allocated | released | configured => exact defined_kept kept rfl (fun _ _ held => held) nofun
  | arrayed absent => exact defined_kept kept rfl (fun _ _ held => row_kept _ held) nofun
  | @made wanted absent =>
      have fresh := made_key wanted ⟨heap.nextClass⟩
      constructor
      · apply nodup_map_append kept.keys
        intro other member
        rw [fresh]
        exact unknown_key absent member
      · exact kept.roots.trans (List.prefix_append _ _)
      · intro other type member
        rcases List.mem_append.mp member with before | now
        · obtain ⟨held, key⟩ := kept.given other type before
          exact ⟨List.mem_append_left _ held, key⟩
        · obtain ⟨rfl, rfl⟩ := Deed.defined.inj (List.mem_singleton.mp now)
          exact ⟨List.mem_append_right _ (List.mem_singleton.mpr rfl), fresh⟩
      · intro type member
        rcases List.mem_append.mp member with before | now
        · rcases kept.origin type before with root | origin
          · exact .inl root
          · exact .inr (origin_later _ origin fun _ held => row_kept _ held)
        · obtain rfl := List.mem_singleton.mp now
          have number : (wanted.made ⟨heap.nextClass⟩).id = ⟨heap.nextClass⟩ := HeapClass.id_shaped _ _ _ _
          -- The key was free until now, so no earlier deed has defined it.
          refine .inr ⟨past, wanted, [], rfl, ?_, congrArg _ number.symm, ?_⟩
          · intro earlier other before same
            obtain ⟨held, key⟩ := kept.given earlier other before
            exact unknown_key absent held (key.trans same)
          · rw [number]
            exact row_risen rooted wanted.row

/-- One array over each component, which holds the class that was given first. -/
structure Interned (past : List Deed) (heap : SyntheticHeap) : Prop where
  keys : (heap.arrays.map Prod.fst).Nodup
  given : ∀ component array, .arrayed component array ∈ past → (component.id, array) ∈ heap.arrays
  first : ∀ entry ∈ heap.arrays, ∃ component, .arrayed component entry.2 ∈ past ∧
    component.id = entry.1 ∧ entry.2 = HeapClass.arrayOver entry.2.id component

theorem interned_kept (kept : Interned past heap) (arrays : after.arrays = heap.arrays)
    (silent : ∀ component array, deed = .arrayed component array → (component.id, array) ∈ heap.arrays) :
    Interned (past ++ [deed]) after := by
  constructor
  · rw [arrays]
    exact kept.keys
  · intro component array member
    rw [arrays]
    rcases List.mem_append.mp member with before | now
    · exact kept.given component array before
    · exact silent component array (List.mem_singleton.mp now).symm
  · intro entry member
    rw [arrays] at member
    obtain ⟨component, made, same, built⟩ := kept.first entry member
    exact ⟨component, List.mem_append_left _ made, same, built⟩

theorem interned_does (kept : Interned past heap) (does : Does heap deed after) :
    Interned (past ++ [deed]) after := by
  cases does with
  | known | made | allocated | released | configured => exact interned_kept kept rfl nofun
  | @interned component array id found =>
      refine interned_kept kept rfl ?_
      rintro _ _ ⟨⟩
      have named : id = component.id := by simpa using List.find?_some found
      exact named ▸ List.mem_of_find?_eq_some found
  | @arrayed component absent =>
      constructor
      · apply nodup_map_append kept.keys
        intro entry member same
        exact List.find?_eq_none.mp absent entry member (decide_eq_true same)
      · intro other array member
        rcases List.mem_append.mp member with before | now
        · exact List.mem_append_left _ (kept.given other array before)
        · obtain ⟨rfl, rfl⟩ := Deed.arrayed.inj (List.mem_singleton.mp now)
          exact List.mem_append_right _ (List.mem_singleton.mpr rfl)
      · intro entry member
        rcases List.mem_append.mp member with before | now
        · obtain ⟨other, made, same, built⟩ := kept.first entry before
          exact ⟨other, List.mem_append_left _ made, same, built⟩
        · obtain rfl := List.mem_singleton.mp now
          exact ⟨component, List.mem_append_right _ (List.mem_singleton.mpr rfl), rfl, rfl⟩

theorem numbered_new : Numbered [] new := ⟨List.nodup_nil, nofun, List.Sublist.refl _⟩

theorem apart_new : Apart new := ⟨by decide, by decide⟩

theorem rooted_new : Rooted new := by
  have loader : new.supertypes.Rises classLoader.id objectClass.id := ⟨_, rfl, List.mem_singleton.mpr rfl⟩
  have made : new.supertypes.Rises loaderType.id classLoader.id := ⟨_, rfl, List.mem_singleton.mpr rfl⟩
  refine ⟨by decide, ?_, List.prefix_refl _⟩
  intro type member
  rcases List.mem_cons.mp member with rfl | others
  · exact .refl
  rcases List.mem_cons.mp others with rfl | last
  · exact .single loader
  · obtain rfl := List.mem_singleton.mp last
    exact .head made (.single loader)

theorem defined_new : Defined [] new :=
  ⟨by decide, List.prefix_refl _, nofun, fun _ member => .inl member⟩

theorem interned_new : Interned [] new := ⟨List.nodup_nil, nofun, nofun⟩

structure Kept (past : List Deed) (heap : SyntheticHeap) : Prop where
  numbered : Numbered past heap
  apart : Apart heap
  rooted : Rooted heap
  defined : Defined past heap
  interned : Interned past heap

theorem kept_new : Kept [] new := ⟨numbered_new, apart_new, rooted_new, defined_new, interned_new⟩

theorem kept_does (kept : Kept past heap) (does : Does heap deed after) : Kept (past ++ [deed]) after where
  numbered := numbered_does kept.numbered does
  apart := apart_does kept.apart does
  rooted := rooted_does kept.rooted does
  defined := defined_does kept.defined kept.rooted does
  interned := interned_does kept.interned does

theorem kept_operated (operations : List Operation) : Kept (operated operations new).1 (operated operations new).2 :=
  operated_keeps Kept kept_does [] kept_new operations

/-- A heap whose tables follow some record. -/
def Tabled (heap : SyntheticHeap) : Prop := ∃ past, Kept past heap

theorem tabled_grows (tabled : Tabled heap) (grows : Grows heap after) : Tabled after := by
  obtain ⟨past, kept⟩ := tabled
  obtain ⟨operations, rfl⟩ := grows
  exact ⟨_, operated_keeps Kept kept_does past kept operations⟩

theorem tabled_built (built : Built heap) : Tabled heap := tabled_grows ⟨[], kept_new⟩ built

theorem Tabled.distinct (tabled : Tabled heap) {first second : HeapClass} (held : first ∈ heap.classes)
    (present : second ∈ heap.classes) (same : first.id = second.id) : first = second := by
  obtain ⟨_, kept⟩ := tabled
  exact List.inj_on_of_nodup_map kept.apart.distinct held present same

theorem Tabled.keyed (tabled : Tabled heap) : (heap.arrays.map Prod.fst).Nodup := by
  obtain ⟨_, kept⟩ := tabled
  exact kept.interned.keys

theorem Tabled.named (tabled : Tabled heap) : (heap.definitions.map keyOf).Nodup := by
  obtain ⟨_, kept⟩ := tabled
  exact kept.defined.keys

theorem Tabled.numbered (tabled : Tabled heap) : (heap.arrays.map fun entry => entry.2.id).Nodup := by
  obtain ⟨_, kept⟩ := tabled
  have ids := kept.apart.distinct
  rw [classes, List.map_append, List.map_append, List.map_map] at ids
  exact ids.of_append_left.of_append_right

theorem Tabled.root_highest (tabled : Tabled heap) (high : ClassId) :
    ¬ heap.supertypes.Rises objectClass.id high := by
  obtain ⟨_, kept⟩ := tabled
  obtain ⟨rows, first⟩ := kept.rooted.roots
  rintro ⟨row, held, above⟩
  have lowest : heap.supertypes.find? (fun row => row.1 = objectClass.id) = some (objectClass.id, []) := by
    rw [← first]
    rfl
  obtain rfl := Option.some.inj (lowest.symm.trans held)
  cases above

theorem Tabled.array_not_root (tabled : Tabled heap) {entry : ClassId × HeapClass} (listed : entry ∈ heap.arrays) :
    entry.2.id ≠ objectClass.id := by
  obtain ⟨_, kept⟩ := tabled
  have ids := kept.apart.distinct
  have root : objectClass ∈ heap.definitions := kept.defined.roots.subset (by decide)
  rw [classes, List.map_append, List.map_append, List.map_map] at ids
  have apart := (List.nodup_append.mp ids.of_append_left).2.2
  intro same
  exact apart _ (List.mem_map_of_mem root) _ (List.mem_map_of_mem listed) same.symm

theorem coherent_operated (operations : List Operation)
    (own : ∀ object ∈ allocated (operated operations new).1, object.type ∈ (operated operations new).2.classes) :
    Tally.Coherent (operated operations new).2.objects := by
  -- An id stands for one class where the objects are allocated with classes of the heap.
  have kept := kept_operated operations
  intro first held second present same
  have known : ∀ object ∈ (operated operations new).2.objects, object.type ∈ (operated operations new).2.classes :=
    fun object member => own object (kept.numbered.live.subset member)
  exact List.inj_on_of_nodup_map kept.apart.distinct (known first held) (known second present) same

theorem definition_of_key (kept : Defined past heap) {type : HeapClass} (member : type ∈ heap.definitions) :
    heap.definition? (keyOf type).1 (keyOf type).2 = some type := by
  cases found : heap.definition? (keyOf type).1 (keyOf type).2 with
  | none => exact absurd rfl (unknown_key found member)
  | some other =>
      obtain ⟨held, key⟩ := found_key found
      rw [List.inj_on_of_nodup_map kept.keys held member key]

theorem define_again (kept : Defined past heap) {type : HeapClass} (member : type ∈ heap.definitions)
    {wanted : Definition} (same : wanted.key = keyOf type) : heap.defineAs wanted = (type, heap) := by
  have found := definition_of_key kept member
  rw [← same] at found
  have held : heap.definition? (wanted.loader.map HeapObject.id) wanted.name = some type := found
  simp only [defineAs, define, held]

theorem array_of_again (kept : Interned past heap) {component array again : HeapClass}
    (made : .arrayed component array ∈ past) (same : again.id = component.id) :
    heap.arrayOf again = (array, heap) := by
  have entry := kept.given component array made
  cases found : heap.arrays.find? fun entry => entry.1 = again.id with
  | none => exact absurd (decide_eq_true same.symm) (List.find?_eq_none.mp found _ entry)
  | some held =>
      have named : held.1 = again.id := by simpa using List.find?_some found
      have member := List.mem_of_find?_eq_some found
      obtain rfl := List.inj_on_of_nodup_map kept.keys member entry (named.trans same)
      simp only [arrayOf, found]

theorem given_held (kept : Kept past heap) {type : HeapClass} (done : deed ∈ past)
    (gives : deed.type? = some type) : type ∈ heap.definitions ++ heap.arrays.map (·.2) := by
  cases deed with
  | defined wanted given =>
      obtain rfl := Option.some.inj gives
      exact List.mem_append_left _ (kept.defined.given wanted given done).1
  | arrayed component array =>
      obtain rfl := Option.some.inj gives
      exact List.mem_append_right _ (List.mem_map_of_mem (kept.interned.given component array done))
  | allocated | released | configured => cases gives

/-- What a loader finds: its own definition, or else the one of the bootstrap loader. -/
inductive Loads (heap : SyntheticHeap) : Option HeapObject → String → Except WalkerError HeapClass → Prop
  | bootstrap {name : String} {type : HeapClass} :
      type ∈ heap.definitions → keyOf type = (none, name) → Loads heap none name (.ok type)
  | missing {name : String} :
      (∀ type ∈ heap.definitions, keyOf type ≠ (none, name)) →
      Loads heap none name (.error (.classNotFound name))
  | own {loader : HeapObject} {name : String} {type : HeapClass} :
      heap.supertypes.Below loader.type.id classLoader.id →
      type ∈ heap.definitions → keyOf type = (some loader.id, name) → Loads heap (some loader) name (.ok type)
  | delegated {loader : HeapObject} {name : String} {answer : Except WalkerError HeapClass} :
      heap.supertypes.Below loader.type.id classLoader.id →
      (∀ type ∈ heap.definitions, keyOf type ≠ (some loader.id, name)) →
      Loads heap none name answer → Loads heap (some loader) name answer
  | foreign {object : HeapObject} {name : String} :
      ¬ heap.supertypes.Below object.type.id classLoader.id →
      Loads heap (some object) name
        (.error (.fault ("Object ObjectId(" ++ Nat.repr object.id.value ++ ") is not a class loader")))

theorem loads_bootstrap (heap : SyntheticHeap) (name : String) : Loads heap none name (heap.load none name) := by
  cases found : heap.definition? none name with
  | some type =>
      obtain ⟨held, key⟩ := found_key found
      rw [load, found]
      exact .bootstrap held key
  | none =>
      rw [load, found]
      exact .missing fun type member => unknown_key found member

theorem load_loads (heap : SyntheticHeap) (loader : Option HeapObject) (name : String) :
    Loads heap loader name (heap.load loader name) := by
  cases loader with
  | none => exact loads_bootstrap heap name
  | some object =>
      cases below : heap.isSubtype object.type classLoader with
      | false =>
          rw [load, below]
          apply Loads.foreign
          rw [← SupertypeTable.is_subtype_iff]
          exact ne_true_of_eq_false below
      | true =>
          have high := (SupertypeTable.is_subtype_iff _ _ _).mp below
          cases found : heap.definition? (some object.id) name with
          | some type =>
              obtain ⟨held, key⟩ := found_key found
              rw [load, below, found]
              exact .own high held key
          | none =>
              have bootstrap := loads_bootstrap heap name
              have delegates : heap.load (some object) name = heap.load none name := by
                simp only [load, below, found, Bool.not_true, Bool.false_eq_true, if_false]
              rw [delegates]
              exact .delegated high (fun type member => unknown_key found member)
                bootstrap

theorem loads_unique (kept : Defined past heap) {loader : Option HeapObject} {name : String}
    {first second : Except WalkerError HeapClass} (one : Loads heap loader name first)
    (other : Loads heap loader name second) : first = second := by
  induction one with
  | @bootstrap name type held key =>
      cases other with
      | bootstrap again same => rw [List.inj_on_of_nodup_map kept.keys held again (key.trans same.symm)]
      | missing absent => exact absurd key (absent type held)
  | missing absent =>
      cases other with
      | bootstrap held key => exact absurd key (absent _ held)
      | missing => rfl
  | @own loader name type below held key =>
      cases other with
      | own _ again same => rw [List.inj_on_of_nodup_map kept.keys held again (key.trans same.symm)]
      | delegated _ absent => exact absurd key (absent type held)
      | foreign high => exact absurd below high
  | delegated below absent _ ih =>
      cases other with
      | own _ held key => exact absurd key (absent _ held)
      | delegated _ _ bootstrap => exact ih bootstrap
      | foreign high => exact absurd below high
  | foreign high =>
      cases other with
      | own below | delegated below => exact absurd below high
      | foreign => rfl

theorem load_class_call (heap : SyntheticHeap) (loader : Option HeapObject) (name : String) :
    (walker.loadClass loader name).call heap = (Outcome.ofExcept (heap.load loader name), heap.served) := rfl

theorem load_class_iff (kept : Defined past heap) (loader : Option HeapObject) (name : String)
    (answer : Except WalkerError HeapClass) :
    (walker.loadClass loader name).call heap = (Outcome.ofExcept answer, heap.served) ↔
      Loads heap loader name answer := by
  have loads := load_loads heap loader name
  rw [load_class_call]
  constructor
  · intro same
    have answers : heap.load loader name = answer := by
      have outcomes := congrArg Prod.fst same
      revert outcomes
      cases heap.load loader name <;> cases answer <;> simp [Outcome.ofExcept]
    rw [← answers]
    exact loads
  · intro given
    rw [loads_unique kept given loads]

/-- What the record of a heap says of it, now and for everything that was done before. -/
structure Recorded (past : List Deed) (heap : SyntheticHeap) : Prop where
  -- Distinct classes have distinct ids, and so have distinct allocations, the released ones included.
  classes : (heap.classes.map HeapClass.id).Nodup
  given : ∀ deed ∈ past, ∀ type, deed.type? = some type → type ∈ heap.classes
  objects : ((allocated past).map HeapObject.id).Nodup
  live : heap.objects.Sublist (allocated past)
  -- One type for each loader and name. Its first definition decides, and another one changes nothing.
  keys : (heap.definitions.map keyOf).Nodup
  roots : new.definitions <+: heap.definitions ∧ new.supertypes <+: heap.supertypes
  defined : ∀ wanted type, .defined wanted type ∈ past → type ∈ heap.definitions ∧ keyOf type = wanted.key
  origin : ∀ type ∈ heap.definitions, type ∈ new.definitions ∨ Origin past heap type
  redefined : ∀ type ∈ heap.definitions, ∀ wanted : Definition, wanted.key = keyOf type →
    heap.defineAs wanted = (type, heap)
  -- One array for each component, which it holds: the class that was given first, if several had its id.
  interned : ∀ component array, .arrayed component array ∈ past → ∀ again : HeapClass,
    again.id = component.id → heap.arrayOf again = (array, heap)
  injective : ∀ component array other made, .arrayed component array ∈ past → .arrayed other made ∈ past →
    array.id = made.id → component.id = other.id
  component : ∀ component array, .arrayed component array ∈ past → ∃ first, .arrayed first array ∈ past ∧
    first.id = component.id ∧ array.component? = some first
  own : (∀ component array, .arrayed component array ∈ past → component ∈ heap.classes) →
    ∀ component array, .arrayed component array ∈ past → array.component? = some component
  below : ∀ deed ∈ past, ∀ type, deed.type? = some type → heap.isSubtype type objectClass = true
  loads : ∀ loader name answer,
    (walker.loadClass loader name).call heap = (Outcome.ofExcept answer, heap.served) ↔
      Loads heap loader name answer

theorem component_first (kept : Interned past heap) {component array : HeapClass}
    (made : .arrayed component array ∈ past) :
    ∃ first, .arrayed first array ∈ past ∧ first.id = component.id ∧ array.component? = some first := by
  obtain ⟨first, given, same, shape⟩ := kept.first _ (kept.given component array made)
  exact ⟨first, given, same, congrArg HeapClass.component? shape⟩

theorem array_unique (kept : Kept past heap) {component array other made : HeapClass}
    (first : .arrayed component array ∈ past) (second : .arrayed other made ∈ past)
    (same : array.id = made.id) : component.id = other.id := by
  have held := List.mem_append_left primitives (given_held kept first rfl)
  have present := List.mem_append_left primitives (given_held kept second rfl)
  obtain rfl := List.inj_on_of_nodup_map kept.apart.distinct held present same
  obtain ⟨part, _, own, holds⟩ := component_first kept.interned first
  obtain ⟨again, _, others, tells⟩ := component_first kept.interned second
  obtain rfl := Option.some.inj (holds.symm.trans tells)
  exact own.symm.trans others

theorem component_own (kept : Kept past heap) {component array : HeapClass}
    (own : ∀ component array, .arrayed component array ∈ past → component ∈ heap.classes)
    (made : .arrayed component array ∈ past) : array.component? = some component := by
  obtain ⟨first, given, same, held⟩ := component_first kept.interned made
  rw [List.inj_on_of_nodup_map kept.apart.distinct (own first array given) (own component array made) same] at held
  exact held

theorem tables_recorded (operations : List Operation) :
    Recorded (operated operations new).1 (operated operations new).2 := by
  have kept := kept_operated operations
  constructor
  · exact kept.apart.distinct
  · intro deed done type gives
    exact List.mem_append_left _ (given_held kept done gives)
  · exact kept.numbered.distinct
  · exact kept.numbered.live
  · exact kept.defined.keys
  · exact ⟨kept.defined.roots, kept.rooted.roots⟩
  · exact kept.defined.given
  · exact kept.defined.origin
  · intro type member wanted same
    exact define_again kept.defined member same
  · intro component array made again same
    exact array_of_again kept.interned made same
  · intro component array other made first second same
    exact array_unique kept first second same
  · intro component array made
    exact component_first kept.interned made
  · intro own component array made
    exact component_own kept own made
  · intro deed done type gives
    exact (SupertypeTable.is_subtype_iff _ _ _).mpr (kept.rooted.below type (given_held kept done gives))
  · exact load_class_iff kept.defined

end HeapCensus.SyntheticHeap
