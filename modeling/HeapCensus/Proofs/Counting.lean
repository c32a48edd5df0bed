import HeapCensus.Proofs.SharedScan

set_option autoImplicit false

namespace HeapCensus

namespace Tally

theorem count_eq_amount (tally : Tally) (type : HeapClass) :
    tally.count type = (tally.amount? type.id).getD 0 := by
  rw [count, amount?, findAmount]
  cases tally.rows.find? fun row => row.1.id = type.id with
  | none => rfl
  | some row => rfl

def amounts (rows : List TallyRow) : List (ClassId × Nat) := rows.map fun row => (row.1.id, row.2)

theorem sum_of_amounts (rows : List TallyRow) : sumRows rows = ((amounts rows).map Prod.snd).sum := by
  induction rows with
  | nil => rfl
  | cons row rows ih =>
      rw [sumRows, ih]
      rfl

theorem find_amount_cons (id : ClassId) (row : TallyRow) (rows : List TallyRow) :
    findAmount id (row :: rows) = if row.1.id = id then some row.2 else findAmount id rows := by
  by_cases same : row.1.id = id <;> simp [findAmount, same]

theorem find_amount_absent {id : ClassId} {rows : List TallyRow} (absent : id ∉ rows.map (·.1.id)) :
    findAmount id rows = none := by
  refine Option.map_eq_none_iff.mpr (List.find?_eq_none.mpr fun row member named => absent ?_)
  exact List.mem_map.mpr ⟨row, member, of_decide_eq_true named⟩

theorem mem_amounts_iff {rows : List TallyRow} (distinct : (rows.map (·.1.id)).Nodup) (id : ClassId)
    (amount : Nat) : (id, amount) ∈ amounts rows ↔ findAmount id rows = some amount := by
  induction rows with
  | nil => simp [amounts, findAmount]
  | cons row rows ih =>
      obtain ⟨absent, others⟩ := List.nodup_cons.mp distinct
      have either : (id, amount) ∈ amounts (row :: rows) ↔
          (id, amount) = (row.1.id, row.2) ∨ (id, amount) ∈ amounts rows := List.mem_cons
      rw [either, ih others, Prod.mk.injEq, find_amount_cons]
      by_cases same : row.1.id = id
      · rw [if_pos same, find_amount_absent (same ▸ absent)]
        simp [same, eq_comm]
      · have other : id ≠ row.1.id := fun equal => same equal.symm
        simp [same, other]

theorem sum_ext {first second : Tally} (same : ∀ id, first.amount? id = second.amount? id) :
    first.sum = second.sum := by
  have nodup : ∀ tally : Tally, (amounts tally.rows).Nodup := by
    intro tally
    refine List.Nodup.of_map Prod.fst ?_
    rw [amounts, List.map_map]
    exact tally.distinct
  have perm : List.Perm (amounts first.rows) (amounts second.rows) := by
    refine (List.perm_ext_iff_of_nodup (nodup first) (nodup second)).mpr fun entry => ?_
    rw [mem_amounts_iff first.distinct, mem_amounts_iff second.distinct]
    exact iff_of_eq (congrArg (· = some entry.2) (same entry.1))
  rw [sum, sum, sum_of_amounts, sum_of_amounts]
  exact (perm.map Prod.snd).sum_eq

end Tally

namespace SyntheticHeap

theorem run_tells {ω σ α : Type} {answer : σ → ScanEvent → SinkReply × σ}
    (taken : ∀ sink event, (answer sink event).1 = .taken) {dialogue : Dialogue ω ScanEvent SinkReply α}
    {events : List ScanEvent} {result : α} (told : Tells dialogue events result) (sink : σ) (world : ω) :
    dialogue.run answer sink world = (result, events.foldl (fun sink event => (answer sink event).2) sink, world) := by
  induction told generalizing sink with
  | stop result => rfl
  | call event resume events result _ ih =>
      rw [Dialogue.run, taken]
      exact ih (answer sink event).2

theorem scan_told {σ : Type} {answer : σ → ScanEvent → SinkReply × σ}
    (taken : ∀ sink event, (answer sink event).1 = .taken) {heap : SyntheticHeap} {type : HeapClass} {tag : Tag}
    {bound : UInt32} {order : List HeapObject}
    (emitted : Tells (heap.emit tag (heap.any type bound)).run (visited tag order) (.ok ())) (sink : σ) :
    (walker.scan type tag bound).run.run answer sink heap =
      (heap.result tag, (heap.scanEvents tag order).foldl (fun sink event => (answer sink event).2) sink,
        heap.served) :=
  run_tells taken (reports_emitted emitted) sink heap.served

theorem record_emitted {heap : SyntheticHeap} {type : HeapClass} {tag : Tag} {bound : UInt32}
    {order : List HeapObject}
    (emitted : Tells (heap.emit tag (heap.any type bound)).run (visited tag order) (.ok ())) :
    record (fun _ => false) (walker.scan type tag bound) heap =
      (⟨heap.result tag, heap.scanEvents tag order⟩, heap.served) := by
  have newest : ∀ (events taken : List ScanEvent),
      events.foldl (fun taken event => (takeDown (fun _ => false) taken event).2) taken = events.reverse ++ taken := by
    intro events
    induction events with
    | nil => exact fun _ => rfl
    | cons event events ih =>
        intro taken
        rw [List.foldl_cons, ih, List.reverse_cons, List.append_assoc]
        rfl
  have takes : ∀ taken event, (takeDown (fun _ => false) taken event).1 = .taken := fun _ _ => rfl
  have ran := scan_told takes emitted []
  rw [record, ran, newest, List.append_nil, List.reverse_reverse]

theorem record_scan (heap : SyntheticHeap) (type : HeapClass) (tag : Tag) (bound : UInt32) :
    ∃ order, List.Perm order (heap.any type bound) ∧
      record (fun _ => false) (walker.scan type tag bound) heap =
        (⟨heap.result tag, heap.scanEvents tag order⟩, heap.served) := by
  obtain ⟨order, same, emitted⟩ := emit_tells heap tag (heap.any type bound)
  exact ⟨order, same, record_emitted emitted⟩

theorem record_in_order (heap : SyntheticHeap) (type : HeapClass) (tag : Tag) (bound : UInt32)
    {order : List (Nat × HeapObject)} (several : 1 < heap.emitThreads)
    (more : 1 < (heap.any type bound).length)
    (interleaved : Interleaved (heap.sharesOf (heap.any type bound)) order) :
    ∃ turns, record (fun _ => false) (walker.scan type tag bound) { heap with turns := turns } =
      (⟨heap.result tag, heap.scanEvents tag (order.map Prod.snd)⟩,
        { heap with turns := turns }.served) := by
  -- So what holds for all turns of a heap holds however its threads interleave.
  obtain ⟨turns, emitted⟩ := emit_in_order heap tag several more interleaved
  exact ⟨turns, record_emitted emitted⟩

theorem exact_alike {heap other : SyntheticHeap} (alike : Alike heap other) (type : HeapClass)
    (bound : UInt32) : other.exact type bound = heap.exact type bound := by
  rw [exact, exact, alike.objects]

theorem length_any_le (heap : SyntheticHeap) (type : HeapClass) (bound : UInt32) :
    (heap.any type bound).length ≤ bound.toNat := by
  rw [any_eq_take]
  exact List.length_take_le _ _

theorem length_exact_le (heap : SyntheticHeap) (type : HeapClass) (bound : UInt32) :
    (heap.exact type bound).length ≤ bound.toNat :=
  List.length_take_le _ _

theorem length_exact_unbounded (heap : SyntheticHeap) (type : HeapClass)
    (few : heap.objects.length < UInt32.size) :
    (heap.exact type unbounded).length = Tally.occurrences type.id heap.objects := by
  have whole : unbounded.toNat = UInt32.size - 1 := by decide
  have all : (heap.objects.filter fun object => object.type.id = type.id).length ≤ unbounded.toNat := by
    have fewer := List.length_filter_le (fun object => decide (object.type.id = type.id)) heap.objects
    omega
  rw [exact, List.take_of_length_le all, Tally.occurrences, List.countP_eq_length_filter]

theorem occurrences_any (heap : SyntheticHeap) {type target : HeapClass}
    (subtype : heap.isSubtype type target = true) (few : heap.objects.length < UInt32.size) :
    Tally.occurrences type.id (heap.any target unbounded) = (heap.exact type unbounded).length := by
  rw [any_unbounded heap target few, below, Tally.occurrences, List.countP_filter,
    length_exact_unbounded heap type few, Tally.occurrences]
  refine List.countP_congr fun object _ => ?_
  have inherits : object.type.id = type.id → heap.isSubtype object.type target = true := by
    intro same
    rw [isSubtype, same]
    exact subtype
  simpa using inherits

end SyntheticHeap

namespace Query

theorem cardinality_performed {ω : Type} (walker : Walker ω) (type : HeapClass) {max : Int} {bound : UInt32}
    (normalized : normalizeBound max = .ok bound) (session : Session ω) :
    let tag := session.census.registry.nextTag
    let recorded := record (fun _ => false) (walker.scan type tag bound) session.world
    ∃ report after, (cardinality walker type max).perform session = (.ok report, after) ∧
      after.world = recorded.2 ∧ Reports tag type recorded.1 report := by
  intro tag recorded
  let begun := session.setRegistry (session.census.registry.begin type session.census.clock).2
  let heard := begun.heard recorded.1.events recorded.2
  have agrees : Registry.Agrees (some (Registry.Account.fresh type)) (begun.census.registry.entryAt tag) := by
    change Registry.Agrees _ ((session.census.registry.begin type session.census.clock).2.entryAt tag)
    rw [Registry.entry_begin, if_pos rfl]
    exact Registry.matches_fresh type session.census.clock
  obtain ⟨entry, held, matched⟩ := Registry.agrees_held
    (Registry.receive_all_agrees agrees begun.census.clock recorded.1.events)
  obtain ⟨report, concluded, reports⟩ := conclude_reports heard recorded.1 held matched
  have accepted : (ofExcept (normalizeBound max) : Query ω UInt32).perform session = (.ok bound, session) := by
    rw [normalized]
    rfl
  refine ⟨report, heard.setRegistry (heard.census.registry.remove tag), ?_, rfl, reports⟩
  rw [cardinality_eq, perform_ok accepted, ← concluded]
  exact perform_ok (run_scan walker type tag bound begun)

open SyntheticHeap (Alike)

variable {session : Session SyntheticHeap} {heap : SyntheticHeap} {type target : HeapClass} {max : Int}
  {bound : UInt32}

theorem accept_bound {ω α : Type} (normalized : normalizeBound max = .ok bound)
    (next : UInt32 → Query ω α) (session : Session ω) :
    (ofExcept (normalizeBound max) >>= next).perform session = (next bound).perform session := by
  rw [normalized]
  rfl

theorem instances_of_any_performed (normalized : normalizeBound max = .ok bound)
    (alike : Alike heap session.world) :
    ∃ after, (instancesOfAny SyntheticHeap.walker target max).perform session =
        (.ok (heap.any target bound), after) ∧ Alike heap after.world := by
  rw [instancesOfAny, accept_bound normalized, ← SyntheticHeap.any_alike alike]
  exact ⟨_, rfl, alike.objects, alike.supertypes⟩

theorem length_of_count {objects : List HeapObject} (within : objects.length ≤ bound.toNat) :
    objects.length.toUInt32.toNat = objects.length :=
  UInt32.toNat_ofNat_of_lt' (Nat.lt_of_le_of_lt within bound.toNat_lt)

theorem count_any_performed (normalized : normalizeBound max = .ok bound)
    (alike : Alike heap session.world) :
    ∃ count after, (countAny SyntheticHeap.walker target max).perform session = (.ok count, after) ∧
      count.toNat = (heap.any target bound).length ∧ Alike heap after.world := by
  rw [countAny, accept_bound normalized, ← SyntheticHeap.any_alike alike]
  exact ⟨_, _, rfl, length_of_count (SyntheticHeap.length_any_le _ _ _), alike.objects, alike.supertypes⟩

theorem instances_of_performed (normalized : normalizeBound max = .ok bound)
    (concrete : type.isConcrete = true) (alike : Alike heap session.world) :
    ∃ after, (instancesOf SyntheticHeap.walker type max).perform session =
        (.ok (heap.exact type bound), after) ∧ Alike heap after.world := by
  rw [instancesOf, accept_bound normalized, concrete, ← SyntheticHeap.exact_alike alike]
  exact ⟨_, rfl, alike.objects, alike.supertypes⟩

theorem count_exact_performed (normalized : normalizeBound max = .ok bound)
    (concrete : type.isConcrete = true) (alike : Alike heap session.world) :
    ∃ count after, (countExact SyntheticHeap.walker type max).perform session = (.ok count, after) ∧
      count.toNat = (heap.exact type bound).length ∧ Alike heap after.world := by
  rw [countExact, accept_bound normalized, concrete, ← SyntheticHeap.exact_alike alike]
  exact ⟨_, _, rfl, length_of_count (SyntheticHeap.length_exact_le _ _ _), alike.objects, alike.supertypes⟩

theorem cardinality_counted (normalized : normalizeBound max = .ok bound)
    (alike : Alike heap session.world) :
    ∃ report after, (cardinality SyntheticHeap.walker target max).perform session = (.ok report, after) ∧
      (∀ type : HeapClass, report.tally.count type = Tally.occurrences type.id (heap.any target bound)) ∧
      report.tally.total = .ok (heap.any target bound).length ∧ Alike heap after.world := by
  let tag := session.census.registry.nextTag
  obtain ⟨order, perm, recorded⟩ := SyntheticHeap.record_scan session.world target tag bound
  rw [SyntheticHeap.any_alike alike] at perm
  obtain ⟨report, after, performed, world, reports⟩ :=
    cardinality_performed SyntheticHeap.walker target normalized session
  have amounts : ∀ id, report.tally.amount? id = (Tally.ofObjects order).amount? id := by
    intro id
    rw [reports.amounts, recorded, SyntheticHeap.visits_of_scan, Tally.amount_of_objects]
  have within : (heap.any target bound).length < UInt64.size := by
    have few := SyntheticHeap.length_any_le heap target bound
    have small := bound.toNat_lt
    have large : UInt64.size = 2 ^ 64 := rfl
    omega
  refine ⟨report, after, performed, ?_, ?_, ?_⟩
  · intro type
    have counted : Tally.occurrences type.id order = Tally.occurrences type.id (heap.any target bound) :=
      perm.countP_eq _
    rw [Tally.count_eq_amount, amounts, Tally.amount_of_objects, ← counted]
    by_cases absent : Tally.occurrences type.id order = 0 <;> simp [absent]
  · rw [Tally.total, Tally.sum_ext amounts, Tally.sum_of_objects, perm.length_eq, counter, if_pos within]
  · rw [world, recorded]
    exact ⟨alike.objects, alike.supertypes⟩

/-- What the queries about a class answer, told by one list of objects. Each query may find another heap, as
long as it is like the given one: heaps that are alike differ in their calls and in the settings and turns
of their scans. -/
structure Agreement (heap : SyntheticHeap) (target : HeapClass) (max : Int) (listed : List HeapObject) :
    Prop where
  lists : ∀ session, Alike heap session.world →
    ∃ after, (instancesOfAny SyntheticHeap.walker target max).perform session = (.ok listed, after) ∧
      Alike heap after.world
  counts : ∀ session, Alike heap session.world →
    ∃ count after, (countAny SyntheticHeap.walker target max).perform session = (.ok count, after) ∧
      count.toNat = listed.length ∧ Alike heap after.world
  scans : ∀ session, Alike heap session.world →
    ∃ report after, (cardinality SyntheticHeap.walker target max).perform session = (.ok report, after) ∧
      (∀ type : HeapClass, report.tally.count type = Tally.occurrences type.id listed) ∧
      report.tally.total = .ok listed.length ∧ Alike heap after.world
  alone : max = 0 → heap.objects.length < UInt32.size →
    ∀ type, type.isConcrete = true → heap.isSubtype type target = true →
      ∀ session, Alike heap session.world →
        (∃ count after, (countExact SyntheticHeap.walker type 0).perform session = (.ok count, after) ∧
          count.toNat = Tally.occurrences type.id listed ∧ Alike heap after.world) ∧
        ∃ objects after, (instancesOf SyntheticHeap.walker type 0).perform session = (.ok objects, after) ∧
          objects.length = Tally.occurrences type.id listed ∧ Alike heap after.world

theorem ways_agree (heap : SyntheticHeap) (target : HeapClass) (max : Int) (nonneg : 0 ≤ max) :
    ∃ listed, Agreement heap target max listed := by
  obtain ⟨bound, normalized⟩ := normalize_bound_ok nonneg
  refine ⟨heap.any target bound, fun _ => instances_of_any_performed normalized,
    fun _ => count_any_performed normalized, fun _ => cardinality_counted normalized, ?_⟩
  rintro rfl few type concrete subtype session alike
  obtain rfl : unbounded = bound := Except.ok.inj normalized
  have occurrences := SyntheticHeap.occurrences_any heap subtype few
  obtain ⟨count, counted, performed, same, later⟩ := count_exact_performed normalized concrete alike
  obtain ⟨listed, enumerated, last⟩ := instances_of_performed normalized concrete alike
  exact ⟨⟨count, counted, performed, same.trans occurrences.symm, later⟩,
    ⟨_, listed, enumerated, occurrences.symm, last⟩⟩

def threaded : SyntheticHeap :=
  let base := SyntheticHeap.new.defineType "Base" .concrete [] none
  let leaf := base.2.defineType "Leaf" .concrete [base.1] none
  let one := (leaf.2.allocate base.1).2
  { (one.allocateMany leaf.1 2).2 with
    emitThreads := 2
    emitNulls := 1
    failScans := true
    turns := fun _ => [1] }

def threadedBase : HeapClass := .plain ⟨12⟩ "Base" .concrete none

def threadedLeaf : HeapClass := .plain ⟨13⟩ "Leaf" .concrete none

def threadedSession : Session SyntheticHeap where
  census := Census.idle (Latency.empty 1 Nat.one_pos)
  world := threaded

theorem threaded_ways_agree :
    (0 : Int) ≤ 0 ∧ threaded.objects.length < UInt32.size ∧ threadedLeaf.isConcrete = true ∧
      threaded.isSubtype threadedLeaf threadedBase = true ∧
      Agreement threaded threadedBase 0 threaded.objects ∧
      Tally.occurrences threadedLeaf.id threaded.objects = 2 := by
  obtain ⟨listed, agreement⟩ := ways_agree threaded threadedBase 0 (Int.le_refl 0)
  obtain ⟨after, performed, _⟩ := agreement.lists threadedSession ⟨rfl, rfl⟩
  have all : ((instancesOfAny SyntheticHeap.walker threadedBase 0).perform threadedSession).1 =
      .ok threaded.objects := by
    cbv
  rw [performed] at all
  obtain rfl := Except.ok.inj all
  exact ⟨Int.le_refl 0, by decide, rfl, by cbv, agreement, by decide⟩

end Query

end HeapCensus
