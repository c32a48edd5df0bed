import HeapCensus.Proofs.Overlap
import HeapCensus.Proofs.Resolution

set_option autoImplicit false

namespace HeapCensus

/-- No remembered list of types is longer than those that loaders can give. -/
def Resolutions.Short (resolutions : Resolutions) : Prop :=
  ∀ entry ∈ resolutions.entries, entry.types.length ≤ UInt32.size

namespace Query

open Registry (Issued)
open SyntheticHeap (Alike Built Grows Tabled Unmoved operated)

variable {session after : Session SyntheticHeap} {types : List HeapClass}

structure Finds (heap after : SyntheticHeap) (types : List HeapClass) : Prop where
  grows : Grows heap after
  unmoved : Unmoved heap after
  known : types ⊆ after.classes
  short : types.length ≤ UInt32.size
  selects : ∀ type ∈ types, after.any type unbounded = heap.any type unbounded

theorem finds_alike {heap after : SyntheticHeap} (grows : Grows heap after) (alike : Alike heap after)
    (known : types ⊆ heap.classes) (short : types.length ≤ UInt32.size) : Finds heap after types := by
  refine ⟨grows, SyntheticHeap.unmoved_alike alike, ?_, short, ?_⟩
  · exact List.Subset.trans known (SyntheticHeap.classes_grow grows)
  · exact fun type _ => SyntheticHeap.any_alike alike type unbounded

theorem resolve_base_finds (session : Session SyntheticHeap) (base : String) :
    ∃ types after, (resolveBase SyntheticHeap.walker base).perform session = (.ok types, after) ∧
      Finds session.world after.world types := by
  cases primitive : isPrimitiveName base with
  | true =>
      have performed : (resolveBase SyntheticHeap.walker base).perform session =
          (.ok (SyntheticHeap.primitive? base).toList, session) := by
        rw [resolveBase, primitive]
        rfl
      refine ⟨_, _, performed, finds_alike (SyntheticHeap.grows_refl _) ⟨rfl, rfl⟩ ?_ ?_⟩
      · intro type member
        have found := Option.mem_toList.mp member
        exact List.mem_append_right _ (List.mem_of_find?_eq_some found)
      · have one : (SyntheticHeap.primitive? base).toList.length ≤ 1 := Option.length_toList_le
        exact Nat.le_trans one (by decide)
  | false =>
      have performed := resolve_loaded_perform session primitive
      have called := SyntheticHeap.undisturbed_calls session.world
      refine ⟨_, _, performed, finds_alike (called _).grows ⟨rfl, rfl⟩ ?_ ?_⟩
      · intro type member
        refine List.mem_append_left _ (List.mem_append_left _ ?_)
        rcases mem_of_insert_all member with own | loaded
        · exact List.mem_of_find?_eq_some (Option.mem_toList.mp own)
        · obtain ⟨loader, _, found⟩ := List.mem_filterMap.mp loaded
          exact SyntheticHeap.load_defined found
      · refine Nat.le_trans (length_insert_all_le _ _) ?_
        have own : (session.world.definition? none base).toList.length ≤ 1 := Option.length_toList_le
        have loaded := List.length_filterMap_le
          (fun loader => (session.world.load (some loader) base).toOption)
          (session.world.any SyntheticHeap.classLoader unbounded)
        have few := SyntheticHeap.length_any_le session.world SyntheticHeap.classLoader unbounded
        have whole : unbounded.toNat + 1 = UInt32.size := by decide
        omega

theorem resolve_dimensions_finds (tabled : Tabled session.world) (base : String) (dimensions : Nat) :
    ∃ types after, (resolveDimensions SyntheticHeap.walker base dimensions).perform session =
        (.ok types, after) ∧ Finds session.world after.world types := by
  induction dimensions with
  | zero => exact resolve_base_finds session base
  | succ dimensions ih =>
      obtain ⟨components, between, performed, finds⟩ := ih
      have grown := SyntheticHeap.tabled_grows tabled finds.grows
      obtain ⟨undisturbed, arrayed⟩ := SyntheticHeap.arrays_of_made grown finds.known
      have unmoved := SyntheticHeap.unmoved_trans finds.unmoved (SyntheticHeap.unmoved_arrays_of grown components)
      have ended := SyntheticHeap.tabled_grows grown undisturbed.grows
      have listed : ∀ type ∈ insertAll [] (SyntheticHeap.arraysOf between.world components).1,
          ∃ id, (id, type) ∈ (SyntheticHeap.arraysOf between.world components).2.arrays := by
        intro type member
        obtain ⟨_, _, entry⟩ := arrayed.only type ((mem_of_insert_all member).resolve_left List.not_mem_nil)
        exact ⟨_, entry⟩
      refine ⟨_, _, (perform_ok performed).trans (arrays_over_performed [] components between),
        SyntheticHeap.grows_trans finds.grows undisturbed.grows, unmoved, ?_, ?_, ?_⟩
      · intro type member
        obtain ⟨_, entry⟩ := listed type member
        exact SyntheticHeap.array_known entry
      · have fewer := length_insert_all_le [] (SyntheticHeap.arraysOf between.world components).1
        have amount := arrayed.amount
        have short := finds.short
        simp only [List.length_nil] at fewer
        omega
      · intro type member
        obtain ⟨_, entry⟩ := listed type member
        -- New arrays stand right below the root, which is no array.
        exact SyntheticHeap.any_unmoved unmoved (ended.array_not_root entry) unbounded

variable {text : String} {found : Session SyntheticHeap}

theorem resolve_finds (built : Built session.world)
    (resolved : (resolve SyntheticHeap.walker text).perform session = (.ok types, found)) :
    (session.census.resolutions.Short → types.length ≤ UInt32.size) ∧
      ∀ type ∈ types, found.world.any type unbounded = session.world.any type unbounded := by
  have looks := resolve_looks SyntheticHeap.walker text session
  rw [resolved] at looks
  cases looks with
  | remembered name types parsed remembered =>
      obtain ⟨entry, member, _, _, rfl⟩ := Resolutions.entry_of_find remembered
      exact ⟨fun short => short entry member, fun type _ => rfl⟩
  | found name types fresh parsed uncached performed =>
      have tabled : Tabled session.missed.world := SyntheticHeap.tabled_built built
      obtain ⟨listed, after, again, finds⟩ := resolve_dimensions_finds tabled name.base name.dimensions
      rw [resolveFresh, again] at performed
      obtain ⟨outcome, rfl⟩ := Prod.mk.inj performed
      obtain rfl := Except.ok.inj outcome
      exact ⟨fun _ => finds.short, finds.selects⟩

/-- The instances of some types, an instance of two of them twice. -/
def amountOfAny (heap : SyntheticHeap) (types : List HeapClass) : Nat :=
  (types.map fun type => (heap.any type unbounded).length).sum

variable {heap : SyntheticHeap} {reports : List ScanReport}

theorem sum_of_lists (lists : List.Forall₂ (Lists heap) types reports) :
    sumRows (Ranking.admitted false (reports.map (·.tally))) = amountOfAny heap types := by
  rw [Ranking.sum_admitted]
  induction lists with
  | nil => rfl
  | cons first rest ih =>
      obtain ⟨order, same, tally⟩ := first
      have one := Tally.sum_of_objects order
      rw [← tally, same.length_eq] at one
      exact congrArg₂ (· + ·) one ih

theorem names_of_lists (lists : List.Forall₂ (Lists heap) types reports) {row : TallyRow}
    (member : row ∈ Ranking.admitted false (reports.map (·.tally))) :
    ∃ type ∈ types, ∃ object ∈ heap.any type unbounded, object.type = row.1 := by
  rw [Ranking.admitted_all] at member
  induction lists with
  | nil => cases member
  | cons first rest ih =>
      rw [List.map_cons, List.flatMap_cons] at member
      rcases List.mem_append.mp member with here | later
      · obtain ⟨order, same, tally⟩ := first
        rw [tally] at here
        obtain ⟨object, present, typed⟩ := Tally.class_of_counted order here
        exact ⟨_, List.mem_cons_self, object, same.mem_iff.mp present, typed⟩
      · obtain ⟨type, held, found⟩ := ih later
        exact ⟨type, List.mem_cons_of_mem _ held, found⟩

theorem amount_alike {after : SyntheticHeap}
    (same : ∀ type ∈ types, after.any type unbounded = heap.any type unbounded) :
    amountOfAny after types = amountOfAny heap types := by
  refine congrArg List.sum (List.map_congr_left fun type member => ?_)
  rw [same type member]

theorem amount_perm {others : List HeapClass} (same : types.Perm others) :
    amountOfAny heap types = amountOfAny heap others :=
  (same.map _).sum_eq

theorem amount_fits (heap : SyntheticHeap) (short : types.length ≤ UInt32.size) :
    amountOfAny heap types < UInt64.size := by
  have each : ∀ amount ∈ types.map fun type => (heap.any type unbounded).length,
      amount ≤ UInt32.size - 1 := by
    intro amount member
    obtain ⟨type, _, rfl⟩ := List.mem_map.mp member
    exact SyntheticHeap.length_any_le heap type unbounded
  have most := List.sum_le_card_nsmul _ _ each
  rw [List.length_map, smul_eq_mul] at most
  have wide : UInt32.size * (UInt32.size - 1) < UInt64.size := by decide
  have all := Nat.mul_le_mul_right (UInt32.size - 1) short
  exact Nat.lt_of_le_of_lt (Nat.le_trans most all) wide

theorem top_instances_sum {rows amount : Nat} (positive : rows ≠ 0)
    (issued : Issued amount found.census.registry) (room : amount + types.length < UInt64.size)
    (short : types.length ≤ UInt32.size)
    (resolved : (resolve SyntheticHeap.walker text).perform session = (.ok types, found))
    (nonempty : types ≠ []) :
    ∃ report after,
      (topInstances SyntheticHeap.walker text rows false).perform session = (.ok report, after) ∧
        Alike found.world after.world ∧ report.roots = types.length ∧
        ∀ names : List String,
          (∀ type ∈ types, ∀ object ∈ found.world.any type unbounded, object.type.canonicalName ∈ names) →
            names.length ≤ rows → (report.entries.map Ranked.count).sum = amountOfAny found.world types := by
  obtain ⟨reports, after, scanned, lists, alike⟩ := scan_all_lists found types issued room
  have total := sum_of_lists lists
  have fits : ∀ name, sumOfNamed name (Ranking.admitted false (reports.map (·.tally))) < UInt64.size := by
    intro name
    refine Nat.lt_of_le_of_lt (sum_of_named_le name _) ?_
    rw [total]
    exact amount_fits found.world short
  obtain ⟨entries, merged⟩ := Ranking.top_merged_ok (reports.map (·.tally)) rows false positive fits
  have performed : (topInstances SyntheticHeap.walker text rows false).perform session = _ :=
    top_instances_perform positive resolved nonempty scanned
  rw [merged] at performed
  refine ⟨_, after, performed, alike, rfl, fun names covers enough => ?_⟩
  refine (Ranking.top_merged_sum merged (Nat.le_trans (gathered_length_le fun row member => ?_) enough)).trans total
  obtain ⟨type, held, object, present, same⟩ := names_of_lists lists member
  exact same ▸ covers type held object present

def namesFound (heap : SyntheticHeap) (types : List HeapClass) : List String :=
  ((types.flatMap fun type => heap.any type unbounded).map (·.type.canonicalName)).dedup

theorem mem_names_found {type : HeapClass} (held : type ∈ types) {object : HeapObject}
    (present : object ∈ heap.any type unbounded) : object.type.canonicalName ∈ namesFound heap types := by
  refine List.mem_dedup.mpr (List.mem_map.mpr ⟨object, ?_, rfl⟩)
  exact List.mem_flatMap.mpr ⟨type, held, present⟩

/-- A count and a ranking below one name, whatever they were asked in. -/
structure TotalsAgree (text : String) (rows : Nat) (heap : SyntheticHeap) (types : List HeapClass)
    (counted : Outcome QueryError NameCount) (ranked : Outcome QueryError RankingReport) : Prop where
  missing : counted = .error (.error (.unresolved (shownName text))) ↔
    ranked = .error (.error (.unresolved (shownName text)))
  totals : counted ≠ .error (.error (.unresolved (shownName text))) →
    ∃ count report, counted = .ok count ∧ ranked = .ok report ∧
      report.roots = count.resolved ∧
      ((namesFound heap types).length ≤ rows → (report.entries.map Ranked.count).sum = count.count)

/-- The second of the two finds the objects and the supertypes as the first has left them. -/
def Unchanged (text : String) (rows : Nat) (counting ranking : Session SyntheticHeap) : Prop :=
  Alike ((countOfAny SyntheticHeap.walker text).perform counting).2.world ranking.world ∨
    Alike ((topInstances SyntheticHeap.walker text rows false).perform ranking).2.world counting.world

theorem resolve_some_missing (resolved : (resolve SyntheticHeap.walker text).perform session = (.ok [], found)) :
    (resolveSome SyntheticHeap.walker text).perform session =
      (.error (.error (.unresolved (shownName text))), found) := by
  rw [resolveSome, perform_ok resolved]
  rfl

theorem unmatched_performed {rows : Nat} (positive : rows ≠ 0)
    {counting ranking counted ranked : Session SyntheticHeap}
    (resolved : (resolve SyntheticHeap.walker text).perform counting = (.ok [], counted))
    (again : (resolve SyntheticHeap.walker text).perform ranking = (.ok [], ranked)) :
    ((countOfAny SyntheticHeap.walker text).perform counting).1 =
        .error (.error (.unresolved (shownName text))) ∧
      ((topInstances SyntheticHeap.walker text rows false).perform ranking).1 =
        .error (.error (.unresolved (shownName text))) := by
  constructor
  · rw [countOfAny, perform_bind, resolve_some_missing resolved]
  · have looked : (look (·.census.clock) : Query SyntheticHeap Nat).perform ranking =
        (.ok ranking.census.clock, ranking) := rfl
    rw [topInstances, if_neg positive, perform_ok looked, perform_bind, resolve_some_missing again]

theorem unchanged_selects {rows : Nat} {counting ranking counted ranked : Session SyntheticHeap}
    {found : List HeapClass} (first : Built counting.world) (second : Built ranking.world)
    (resolved : (resolve SyntheticHeap.walker text).perform counting = (.ok types, counted))
    (again : (resolve SyntheticHeap.walker text).perform ranking = (.ok found, ranked))
    (same : types.Perm found) (unchanged : Unchanged text rows counting ranking)
    (summed : Alike counted.world ((countOfAny SyntheticHeap.walker text).perform counting).2.world)
    (scanned : Alike ranked.world
      ((topInstances SyntheticHeap.walker text rows false).perform ranking).2.world) :
    ∀ type ∈ types, counted.world.any type unbounded = counting.world.any type unbounded ∧
      ranked.world.any type unbounded = counting.world.any type unbounded := by
  intro type member
  have counts := (resolve_finds first resolved).2 type member
  have ranks := (resolve_finds second again).2 type (same.subset member)
  refine ⟨counts, ?_⟩
  rcases unchanged with before | after
  · have between := SyntheticHeap.any_alike before type unbounded
    rw [SyntheticHeap.any_alike summed, counts] at between
    exact ranks.trans between
  · have between := SyntheticHeap.any_alike after type unbounded
    rw [SyntheticHeap.any_alike scanned] at between
    exact between.symm

theorem totals_agree (text : String) (rows : Nat) (counting ranking counted ranked : Session SyntheticHeap)
    (types found : List HeapClass) (amount : Nat) (positive : rows ≠ 0)
    (first : Built counting.world) (second : Built ranking.world)
    (issued : Issued amount ranking.census.registry) (room : amount + 1 + types.length < UInt64.size)
    (short : ranking.census.resolutions.Short) (unchanged : Unchanged text rows counting ranking)
    (resolved : (resolve SyntheticHeap.walker text).perform counting = (.ok types, counted))
    (again : (resolve SyntheticHeap.walker text).perform ranking = (.ok found, ranked))
    (same : types.Perm found) :
    TotalsAgree text rows counting.world types
      ((countOfAny SyntheticHeap.walker text).perform counting).1
      ((topInstances SyntheticHeap.walker text rows false).perform ranking).1 := by
  by_cases unmatched : types = []
  · subst unmatched
    obtain rfl := same.nil_eq
    obtain ⟨counts, ranks⟩ := unmatched_performed positive resolved again
    exact ⟨⟨fun _ => ranks, fun _ => counts⟩, fun other => absurd counts other⟩
  · have matched : found ≠ [] := by
      rintro rfl
      exact unmatched same.eq_nil
    obtain ⟨summed, count, summedAlike⟩ := count_of_any_perform resolved unmatched
    have settled : Settled ranking.world.objects (amount + 1) ranked := by
      have before : Settled ranking.world.objects amount ranking := ⟨rfl, amount, Nat.le_refl _, issued⟩
      have led := settled_resolve text (by omega) ranking before
      rwa [again] at led
    obtain ⟨later, bounded, issuedLater⟩ := settled.issued
    have amounts := same.length_eq
    obtain ⟨report, scanned, rank, scannedAlike, roots, total⟩ := top_instances_sum positive issuedLater
      (by omega) ((resolve_finds second again).1 short) again matched
    have selects := unchanged_selects first second resolved again same unchanged
      (by rw [count]; exact summedAlike) (by rw [rank]; exact scannedAlike)
    rw [count, rank]
    refine ⟨⟨nofun, nofun⟩, fun _ => ⟨_, report, rfl, rfl, roots.trans amounts.symm, fun enough => ?_⟩⟩
    have listed : (report.entries.map Ranked.count).sum = amountOfAny ranked.world found := by
      refine total (namesFound counting.world types) (fun type held object present => ?_) enough
      have member := same.mem_iff.mpr held
      rw [(selects type member).2] at present
      exact mem_names_found member present
    rw [listed, ← amount_perm same, amount_alike fun type member => (selects type member).2]
    exact (amount_alike fun type member => (selects type member).1).symm

/-- Two loaders have a type of one name. The walker's scans have gaps, are never completed and fail after
all. -/
def twofoldOperations : List SyntheticHeap.Operation :=
  let base : HeapClass := .plain ⟨12⟩ "Base" .concrete none
  let loader : HeapObject := ⟨⟨1⟩, SyntheticHeap.loaderType⟩
  [.defineClass "Base" none,
   .newLoader,
   .define ⟨"Base", .plain .concrete, [base], some loader⟩,
   .define ⟨"Leaf", .plain .concrete, [base], none⟩,
   .allocateMany base 2,
   .allocate (.plain ⟨14⟩ "Leaf" .concrete none),
   .allocate (.plain ⟨13⟩ "Base" .concrete (some ⟨1⟩)),
   .configure 2 1 0 true true fun _ => [1]]

def twofold : Session SyntheticHeap where
  census := { Census.idle (Latency.empty 1 Nat.one_pos) with turns := [1, 1, 0] }
  world := (operated twofoldOperations .new).2

def twofoldTypes : List HeapClass :=
  [.plain ⟨12⟩ "Base" .concrete none, .plain ⟨13⟩ "Base" .concrete (some ⟨1⟩)]

def twofoldFound : Session SyntheticHeap :=
  ((resolve SyntheticHeap.walker "Base").perform twofold).2

set_option maxRecDepth 20000 in
theorem twofold_resolved :
    (resolve SyntheticHeap.walker "Base").perform twofold = (.ok twofoldTypes, twofoldFound) :=
  Prod.ext (by cbv) rfl

theorem twofold_built : Built twofold.world := ⟨twofoldOperations, rfl⟩

set_option maxRecDepth 20000 in
theorem twofold_totals_agree :
    2 ≠ 0 ∧ Built twofold.world ∧ Issued 0 twofold.census.registry ∧
      0 + 1 + twofoldTypes.length < UInt64.size ∧ twofold.census.resolutions.Short ∧
      Unchanged "Base" 2 twofold twofold ∧
      TotalsAgree "Base" 2 twofold.world twofoldTypes
        ((countOfAny SyntheticHeap.walker "Base").perform twofold).1
        ((topInstances SyntheticHeap.walker "Base" 2 false).perform twofold).1 ∧
      namesFound twofold.world twofoldTypes = ["Leaf", "Base"] ∧
      ((countOfAny SyntheticHeap.walker "Base").perform twofold).1 = .ok ⟨"Base", 5, 2⟩ := by
  have issued : Issued 0 twofold.census.registry := Registry.issued_new _
  have room : 0 + 1 + twofoldTypes.length < UInt64.size := by decide
  have short : twofold.census.resolutions.Short := fun entry member => nomatch member
  have unchanged : Unchanged "Base" 2 twofold twofold := .inl ⟨by cbv, by cbv⟩
  have agree := totals_agree "Base" 2 twofold twofold twofoldFound twofoldFound twofoldTypes twofoldTypes 0
    (by decide) twofold_built twofold_built issued room short unchanged twofold_resolved twofold_resolved
    (List.Perm.refl _)
  exact ⟨by decide, twofold_built, issued, room, short, unchanged, agree, by cbv, by cbv⟩

def vacant : Session SyntheticHeap where
  census := Census.idle (Latency.empty 1 Nat.one_pos)
  world := (operated [.defineClass "Base" none] .new).2

def vacantTypes : List HeapClass := [.plain ⟨12⟩ "Base" .concrete none]

set_option maxRecDepth 20000 in
theorem vacant_totals_differ :
    Built vacant.world ∧ Unchanged "Base" 0 vacant vacant ∧
      ((resolve SyntheticHeap.walker "Base").perform vacant).1 = .ok vacantTypes ∧
      (namesFound vacant.world vacantTypes).length ≤ 0 ∧
      ¬ TotalsAgree "Base" 0 vacant.world vacantTypes
        ((countOfAny SyntheticHeap.walker "Base").perform vacant).1
        ((topInstances SyntheticHeap.walker "Base" 0 false).perform vacant).1 := by
  refine ⟨⟨_, rfl⟩, .inl ⟨by cbv, by cbv⟩, by cbv, by decide, ?_⟩
  intro agree
  have counted : ((countOfAny SyntheticHeap.walker "Base").perform vacant).1 = .ok ⟨"Base", 0, 1⟩ := by
    cbv
  have refused : ((topInstances SyntheticHeap.walker "Base" 0 false).perform vacant).1 =
      .error (.error (QueryError.ofRanking .noRows)) := rfl
  rw [counted, refused] at agree
  have matched : (.ok ⟨"Base", 0, 1⟩ : Outcome QueryError NameCount) ≠
      .error (.error (.unresolved (shownName "Base"))) := by
    intro same
    cases same
  obtain ⟨count, report, _, ranked, _⟩ := agree.totals matched
  cases ranked

end Query

end HeapCensus
