import HeapCensus.Proofs.Counting
import HeapCensus.Proofs.Selection

set_option autoImplicit false

namespace HeapCensus.Tally

variable {pairs : List TallyRow} {tally : Tally}

theorem sum_of_id_cons (id : ClassId) (row : TallyRow) (rows : List TallyRow) :
    sumOfId id (row :: rows) = (if row.1.id = id then row.2 else 0) + sumOfId id rows := by
  rw [← sum_of_id_singleton, ← sum_of_id_append]
  rfl

theorem sum_of_id_distinct {rows : List TallyRow} (distinct : (rows.map (·.1.id)).Nodup) (id : ClassId) :
    sumOfId id rows = (findAmount id rows).getD 0 := by
  induction rows with
  | nil => rfl
  | cons row rows ih =>
      obtain ⟨absent, others⟩ := List.nodup_cons.mp distinct
      rw [sum_of_id_cons, find_amount_cons]
      by_cases same : row.1.id = id
      · rw [if_pos same, if_pos same, sum_of_id_absent (same ▸ absent)]
        rfl
      · rw [if_neg same, if_neg same, ih others, Nat.zero_add]

theorem count_eq_sum (tally : Tally) (type : HeapClass) : tally.count type = sumOfId type.id tally.rows := by
  rw [count_eq_amount, sum_of_id_distinct tally.distinct]
  rfl

theorem sum_of_id_perm {first second : List TallyRow} (same : first.Perm second) (id : ClassId) :
    sumOfId id first = sumOfId id second :=
  Ranking.sum_rows_perm (same.filter _)

theorem mem_rows_iff (tally : Tally) (row : TallyRow) :
    row ∈ tally.rows ↔ row.1 ∈ tally.rows.map Prod.fst ∧ tally.count row.1 = row.2 := by
  constructor
  · intro held
    exact ⟨List.mem_map_of_mem held, Ranking.count_of_row tally held⟩
  · rintro ⟨present, counted⟩
    obtain ⟨other, held, same⟩ := List.mem_map.mp present
    have equal : row = other := by
      refine Prod.ext same.symm ?_
      rw [← counted, ← same]
      exact Ranking.count_of_row tally held
    exact equal ▸ held

structure Equal (first second : Tally) : Prop where
  rows : first.rows.Perm second.rows
  same : first.same second = true

theorem equal_of_perm {first second : Tally} (rows : first.rows.Perm second.rows) : Equal first second := by
  refine ⟨rows, ?_⟩
  rw [Tally.same, Bool.and_eq_true, List.all_eq_true]
  refine ⟨decide_eq_true rows.length_eq, fun row held => List.any_eq_true.mpr ?_⟩
  exact ⟨row, rows.mem_iff.mp held, by simp⟩

theorem equal_of_counts {first second : Tally}
    (classes : ∀ type, type ∈ first.rows.map Prod.fst ↔ type ∈ second.rows.map Prod.fst)
    (counts : ∀ type, first.count type = second.count type) : Equal first second := by
  have nodup : ∀ tally : Tally, tally.rows.Nodup := fun tally => tally.distinct.of_map _
  refine equal_of_perm ((List.perm_ext_iff_of_nodup (nodup first) (nodup second)).mpr fun row => ?_)
  rw [mem_rows_iff, mem_rows_iff, classes, counts]

theorem count_of_pairs (pairs : List TallyRow) (type : HeapClass) :
    (ofPairs pairs).count type = sumOfId type.id pairs := by
  rw [count_eq_amount, amount_of_pairs]
  by_cases present : type.id ∈ pairs.map (·.1.id)
  · rw [if_pos present]
    rfl
  · rw [if_neg present, sum_of_id_absent present]
    rfl

theorem class_of_collected (pairs : List TallyRow) {type : HeapClass}
    (present : type ∈ (ofPairs pairs).rows.map Prod.fst) : type ∈ pairs.map Prod.fst := by
  obtain ⟨row, held, rfl⟩ := List.mem_map.mp present
  obtain ⟨pair, among, same⟩ := class_of_pairs pairs held
  exact List.mem_map.mpr ⟨pair, among, same⟩

theorem classes_of_pairs (unambiguous : Unambiguous pairs) (type : HeapClass) :
    type ∈ (ofPairs pairs).rows.map Prod.fst ↔ type ∈ pairs.map Prod.fst := by
  constructor
  · exact class_of_collected pairs
  · intro present
    obtain ⟨pair, among, rfl⟩ := List.mem_map.mp present
    have found : (ofPairs pairs).amount? pair.1.id = some (sumOfId pair.1.id pairs) := by
      rw [amount_of_pairs, if_pos (List.mem_map.mpr ⟨pair, among, rfl⟩)]
    obtain ⟨row, first, _⟩ := Option.map_eq_some_iff.mp found
    have held := List.mem_of_find?_eq_some first
    have named : row.1.id = pair.1.id := by simpa using List.find?_some first
    obtain ⟨other, present, same⟩ := class_of_pairs pairs held
    rw [← same] at named
    rw [← unambiguous other present pair among named, same]
    exact List.mem_map_of_mem held

theorem collect_of_pairs (fits : sumRows pairs < UInt64.size) : collect pairs = .ok (ofPairs pairs) := by
  have small : ((ofPairs pairs).rows.all fun row => row.2 < UInt64.size) = true := by
    refine List.all_eq_true.mpr fun row held => decide_eq_true ?_
    have part : row.2 ≤ (ofPairs pairs).sum := by
      rw [Tally.sum, Ranking.sum_rows_eq]
      exact List.single_le_sum (fun _ _ => Nat.zero_le _) _ (List.mem_map_of_mem held)
    rw [sum_of_pairs] at part
    exact Nat.lt_of_le_of_lt part fits
  exact if_pos small

/-- The counts merged by name. -/
structure MergesNames (pairs : List TallyRow) (tally : Tally) (named : List NamedRow) : Prop where
  distinct : (named.map Prod.fst).Nodup
  names : ∀ name, name ∈ named.map Prod.fst ↔ ∃ type ∈ pairs.map Prod.fst, type.canonicalName = name
  counts : ∀ row ∈ named, tally.countByName row.1 = .ok row.2
  others : ∀ name, name ∉ named.map Prod.fst → tally.countByName name = .ok 0
  total : tally.total = .ok (named.map Prod.snd).sum

structure Collects (pairs : List TallyRow) (tally : Tally) : Prop where
  classes : ∀ type, type ∈ tally.rows.map Prod.fst ↔ type ∈ pairs.map Prod.fst
  counts : ∀ type, tally.count type = sumOfId type.id pairs
  total : tally.total = .ok (sumRows pairs)
  byName : ∀ name, tally.countByName name = .ok (sumOfNamed name pairs)
  named : ∃ named, tally.named = .ok named ∧ MergesNames pairs tally named

structure Adds (one other both : Tally) : Prop where
  classes : ∀ type, type ∈ both.rows.map Prod.fst ↔
    type ∈ one.rows.map Prod.fst ∨ type ∈ other.rows.map Prod.fst
  counts : ∀ type, both.count type = one.count type + other.count type

structure Faithful (pairs : List TallyRow) (tally : Tally) : Prop where
  collected : collect pairs = .ok tally
  traversed : ∀ other : Tally, other.rows.Perm tally.rows → Collects pairs other
  rearranged : ∀ others, others.Perm pairs → ∃ again, collect others = .ok again ∧ Equal again tally
  parts : ∀ first second, (first ++ second).Perm pairs →
    ∃ one other, collect first = .ok one ∧ collect second = .ok other ∧
      (∀ rows, rows.Perm (one.rows ++ other.rows) → ∃ both, collect rows = .ok both ∧ Adds one other both) ∧
      ∀ both, Adds one other both → Equal both tally

theorem sum_of_name_absent {name : String} {rows : List TallyRow}
    (absent : ¬∃ row ∈ rows, row.1.canonicalName = name) : sumOfNamed name rows = 0 :=
  sum_filter_none fun row held named => absent ⟨row, held, of_decide_eq_true named⟩

theorem counter_ok {sum : Nat} (fits : sum < UInt64.size) : counter sum = .ok sum :=
  (counter_eq_ok_iff sum sum).mpr ⟨fits, rfl⟩

theorem collects (unambiguous : Unambiguous pairs) (fits : sumRows pairs < UInt64.size)
    (rows : tally.rows.Perm (ofPairs pairs).rows) : Collects pairs tally := by
  have classes : ∀ type, type ∈ tally.rows.map Prod.fst ↔ type ∈ pairs.map Prod.fst := by
    intro type
    rw [(rows.map Prod.fst).mem_iff, classes_of_pairs unambiguous]
  have sum : sumRows tally.rows = sumRows pairs := by
    rw [Ranking.sum_rows_perm rows]
    exact sum_of_pairs pairs
  have names : ∀ name, sumOfNamed name tally.rows = sumOfNamed name pairs := by
    intro name
    rw [Ranking.sum_of_named_perm rows]
    exact sum_of_name_of_pairs pairs unambiguous name
  have small : ∀ name, sumOfNamed name tally.rows < UInt64.size := by
    intro name
    have part := sum_of_named_le name tally.rows
    omega
  have byName : ∀ name, tally.countByName name = .ok (sumOfNamed name tally.rows) :=
    fun name => counter_ok (small name)
  have total : tally.total = .ok (sumRows tally.rows) := counter_ok (lt_of_eq_of_lt sum fits)
  have gathers := gathers_gathered tally.rows
  constructor
  case classes => exact classes
  case counts =>
    intro type
    rw [count_eq_sum, sum_of_id_perm rows, ← count_eq_sum, count_of_pairs]
  case total => rw [total, sum]
  case byName =>
    intro name
    rw [byName, names]
  case named =>
    refine ⟨gathered tally.rows, gather_names_ok _ small, ?_⟩
    constructor
    case distinct => exact gathers.distinct
    case names =>
      intro name
      rw [gathers.names]
      constructor
      · rintro ⟨row, held, named⟩
        exact ⟨row.1, (classes row.1).mp (List.mem_map_of_mem held), named⟩
      · rintro ⟨type, present, named⟩
        obtain ⟨row, held, rfl⟩ := List.mem_map.mp ((classes type).mpr present)
        exact ⟨row, held, named⟩
    case counts =>
      intro row held
      rw [byName, ← gathers.amounts, amount_of_mem gathers.distinct held]
    case others =>
      intro name absent
      rw [byName, sum_of_name_absent fun held => absent ((gathers.names name).mpr held)]
    case total => rw [total, sum_gathered]

theorem unambiguous_of_classes {others : List TallyRow} (unambiguous : Unambiguous pairs)
    (within : ∀ type, type ∈ others.map Prod.fst → type ∈ pairs.map Prod.fst) : Unambiguous others := by
  intro first held second present same
  obtain ⟨one, among, equal⟩ := List.mem_map.mp (within first.1 (List.mem_map_of_mem held))
  obtain ⟨other, along, alike⟩ := List.mem_map.mp (within second.1 (List.mem_map_of_mem present))
  rw [← equal, ← alike] at same ⊢
  exact unambiguous one among other along same

theorem adds_rows {one other : Tally} {rows : List TallyRow} (order : rows.Perm (one.rows ++ other.rows))
    (unambiguous : Unambiguous rows) : Adds one other (ofPairs rows) := by
  constructor
  case classes =>
    intro type
    rw [classes_of_pairs unambiguous, (order.map Prod.fst).mem_iff, List.map_append, List.mem_append]
  case counts =>
    intro type
    rw [count_of_pairs, sum_of_id_perm order, sum_of_id_append, ← count_eq_sum, ← count_eq_sum]

theorem equal_of_adds {first second : List TallyRow} (unambiguous : Unambiguous (first ++ second)) {both : Tally}
    (adds : Adds (ofPairs first) (ofPairs second) both) : Equal both (ofPairs (first ++ second)) := by
  have one : Unambiguous first := unambiguous_of_classes unambiguous (by simp +contextual)
  have other : Unambiguous second := unambiguous_of_classes unambiguous (by simp +contextual)
  refine equal_of_counts (fun type => ?_) fun type => ?_
  · rw [adds.classes, classes_of_pairs one, classes_of_pairs other, classes_of_pairs unambiguous,
      List.map_append, List.mem_append]
  · rw [adds.counts, count_of_pairs, count_of_pairs, count_of_pairs, sum_of_id_append]

theorem equal_of_rearranged {others : List TallyRow} (unambiguous : Unambiguous pairs) (same : others.Perm pairs) :
    Equal (ofPairs others) (ofPairs pairs) := by
  have still : Unambiguous others :=
    unambiguous_of_classes unambiguous fun type => (same.map Prod.fst).mem_iff.mp
  refine equal_of_counts (fun type => ?_) fun type => ?_
  · rw [classes_of_pairs still, classes_of_pairs unambiguous, (same.map Prod.fst).mem_iff]
  · rw [count_of_pairs, count_of_pairs, sum_of_id_perm same]

theorem faithful_of_pairs (unambiguous : Unambiguous pairs) (fits : sumRows pairs < UInt64.size) :
    Faithful pairs (ofPairs pairs) := by
  constructor
  case collected => exact collect_of_pairs fits
  case traversed => exact fun other rows => collects unambiguous fits rows
  case rearranged =>
    intro others same
    exact ⟨ofPairs others, collect_of_pairs (Ranking.sum_rows_perm same ▸ fits), equal_of_rearranged unambiguous same⟩
  case parts =>
    intro first second same
    have all : Unambiguous (first ++ second) :=
      unambiguous_of_classes unambiguous fun type => (same.map Prod.fst).mem_iff.mp
    have sum : sumRows first + sumRows second = sumRows pairs := by
      rw [← sum_rows_append, Ranking.sum_rows_perm same]
    refine ⟨ofPairs first, ofPairs second, collect_of_pairs (by omega), collect_of_pairs (by omega), ?_, ?_⟩
    · intro rows order
      have small : sumRows rows < UInt64.size := by
        have left : sumRows (ofPairs first).rows = sumRows first := sum_of_pairs first
        have right : sumRows (ofPairs second).rows = sumRows second := sum_of_pairs second
        rw [Ranking.sum_rows_perm order, sum_rows_append, left, right, sum]
        exact fits
      -- The rows of the parts are of classes of the pairs.
      have held : Unambiguous rows := by
        refine unambiguous_of_classes all fun type present => ?_
        rw [(order.map Prod.fst).mem_iff, List.map_append, List.mem_append] at present
        rw [List.map_append, List.mem_append]
        exact present.imp (class_of_collected first) (class_of_collected second)
      exact ⟨ofPairs rows, collect_of_pairs small, adds_rows order held⟩
    · intro both adds
      have whole := equal_of_adds all adds
      exact equal_of_perm (whole.rows.trans (equal_of_rearranged unambiguous same).rows)

theorem collected_faithfully (pairs : List TallyRow) (unambiguous : Unambiguous pairs)
    (fits : sumRows pairs < UInt64.size) : ∃ tally, Faithful pairs tally :=
  ⟨ofPairs pairs, faithful_of_pairs unambiguous fits⟩

def mingled : List TallyRow :=
  let foo (id : Nat) := HeapClass.concrete ⟨id⟩ "com.acme.Foo" (some ⟨id⟩)
  [(foo 3, 2), (HeapClass.concrete ⟨4⟩ "com.acme.Bar" none, 0), (foo 6, 7), (foo 3, 1)]

theorem mingled_collected :
    Unambiguous mingled ∧ sumRows mingled < UInt64.size ∧
      ∃ tally, Faithful mingled tally ∧ tally.rows.map Prod.snd = [3, 0, 7] ∧
        tally.named = .ok [("com.acme.Foo", 10), ("com.acme.Bar", 0)] := by
  have unambiguous : Unambiguous mingled := by
    unfold Unambiguous
    decide
  have fits : sumRows mingled < UInt64.size := by decide
  obtain ⟨tally, faithful⟩ := collected_faithfully mingled unambiguous fits
  have shown : collect mingled = .ok (ofPairs mingled) := by cbv
  obtain rfl := Except.ok.inj (faithful.collected.symm.trans shown)
  exact ⟨unambiguous, fits, _, faithful, by cbv, by cbv⟩

end HeapCensus.Tally
