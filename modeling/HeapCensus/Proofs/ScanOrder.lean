import HeapCensus.Proofs.Counting

set_option autoImplicit false

namespace HeapCensus

def ScanEvent.tag : ScanEvent → Tag
  | .visited tag _ => tag
  | .completed tag => tag
  | .fault tag _ => tag

namespace SyntheticHeap

theorem threads_of_shares (shares : List (List HeapObject)) (first : Nat) :
    ((shares.zipIdx first).map fun (share, thread) => (thread, share)).map Prod.fst =
      List.range' first shares.length := by
  induction shares generalizing first with
  | nil => rfl
  | cons share shares ih =>
      rw [List.zipIdx_cons, List.map_cons, List.map_cons, ih, List.length_cons, List.range'_succ]

theorem portions_threads (heap : SyntheticHeap) (objects : List HeapObject) :
    ((heap.portions objects).map Prod.fst).Nodup := by
  by_cases enough : 1 < heap.emitThreads ∧ 1 < objects.length
  · rw [portions, if_pos enough, sharesOf, threads_of_shares]
    exact List.nodup_range'
  · rw [portions, if_neg enough]
    exact List.nodup_singleton 0

theorem portions_length_le (heap : SyntheticHeap) (objects : List HeapObject) :
    (heap.portions objects).length ≤ Nat.max heap.emitThreads 1 := by
  by_cases enough : 1 < heap.emitThreads ∧ 1 < objects.length
  · have room := length_le_ceil objects.length heap.emitThreads (by omega)
    have few := chunks_length_le _ objects.length heap.emitThreads objects room
    rw [portions, if_pos enough, sharesOf, List.length_map, List.length_zipIdx]
    exact Nat.le_trans few (Nat.le_max_left _ _)
  · rw [portions, if_neg enough]
    exact Nat.le_max_right _ _

theorem interleaved_alone {thread : Nat} {objects : List HeapObject} {order : List (Nat × HeapObject)}
    (interleaved : Interleaved [(thread, objects)] order) : order.map Prod.snd = objects := by
  have own : (order.filter fun report => report.1 = thread).map Prod.snd = objects :=
    interleaved_share interleaved (List.nodup_singleton thread) List.mem_cons_self
  have all : (order.filter fun report => report.1 = thread).length = order.length := by
    rw [interleaved_length interleaved, ← List.length_map (f := Prod.snd), own, left, List.flatMap_cons,
      List.flatMap_nil, List.append_nil]
  rw [← own, List.filter_sublist.eq_of_length all]

theorem emit_as_interleaved (heap : SyntheticHeap) (tag : Tag) {objects : List HeapObject}
    {order : List (Nat × HeapObject)} (interleaved : Interleaved (heap.portions objects) order) :
    ∃ turns, Tells ({ heap with turns := turns }.emit tag objects).run (visited tag (order.map Prod.snd))
      (.ok ()) := by
  by_cases enough : 1 < heap.emitThreads ∧ 1 < objects.length
  · rw [portions, if_pos enough] at interleaved
    exact emit_in_order heap tag enough.1 enough.2 interleaved
  · rw [portions, if_neg enough] at interleaved
    rw [interleaved_alone interleaved]
    refine ⟨heap.turns, ?_⟩
    rw [emit_alone _ tag objects enough]
    exact report_all_tells tag objects

def ScansAs (heap : SyntheticHeap) (type : HeapClass) (tag : Tag) (bound : UInt32) (events : List ScanEvent) :
    Prop :=
  ∀ (σ : Type) (answer : σ → ScanEvent → SinkReply × σ), (∀ sink event, (answer sink event).1 = .taken) →
    ∀ sink, (walker.scan type tag bound).run.run answer sink heap =
      (heap.result tag, events.foldl (fun sink event => (answer sink event).2) sink, heap.served)

structure Reported (heap : SyntheticHeap) (listed : List HeapObject) (order : List (Nat × HeapObject)) : Prop where
  once : (order.map Prod.snd).Perm listed
  shares : ∀ share ∈ heap.portions listed,
    (order.filter fun report => report.1 = share.1).map Prod.snd = share.2
  alone : heap.emitThreads ≤ 1 → order.map Prod.snd = listed

theorem interleaved_reported {heap : SyntheticHeap} {listed : List HeapObject} {order : List (Nat × HeapObject)}
    (interleaved : Interleaved (heap.portions listed) order) : Reported heap listed order := by
  constructor
  case once =>
    have reported := interleaved_perm interleaved
    rw [left_portions] at reported
    exact reported
  case shares => exact fun _ => interleaved_share interleaved (heap.portions_threads listed)
  case alone =>
    intro single
    rw [portions, if_neg (by omega)] at interleaved
    exact interleaved_alone interleaved

theorem scan_events_tagged (heap : SyntheticHeap) (tag : Tag) (order : List HeapObject) :
    ∀ event ∈ heap.scanEvents tag order, event.tag = tag := by
  have ends : ∀ event ∈ heap.ending tag, event.tag = tag := by
    intro event member
    by_cases silent : (heap.failScans || heap.skipCompletion) = true
    · rw [ending, if_pos silent] at member
      cases member
    · rw [ending, if_neg silent, List.mem_singleton] at member
      rw [member]
      rfl
  intro event member
  rcases List.mem_append.mp member with null | later
  · rw [List.eq_of_mem_replicate null]
    rfl
  · rcases List.mem_append.mp later with visit | last
    · obtain ⟨object, _, rfl⟩ := List.mem_map.mp visit
      rfl
    · exact ends event last

theorem ending_eq (heap : SyntheticHeap) (tag : Tag) :
    heap.ending tag = if heap.failScans = false ∧ heap.skipCompletion = false then [.completed tag] else [] := by
  rw [ending]
  cases heap.failScans <;> cases heap.skipCompletion <;> rfl

theorem fails_iff (heap : SyntheticHeap) (tag : Tag) :
    (∃ text, heap.result tag = .error (.error (.fault text))) ↔ heap.failScans = true := by
  rw [result]
  cases heap.failScans <;> simp [Outcome.fail]

/-- What a scan of a list delivers, whatever the turns of its threads. -/
structure Delivers (heap : SyntheticHeap) (type : HeapClass) (tag : Tag) (bound : UInt32)
    (listed : List HeapObject) : Prop where
  -- The shares of the threads are the list, cut into no more pieces than there are threads.
  whole : (heap.portions listed).flatMap Prod.snd = listed
  few : (heap.portions listed).length ≤ Nat.max heap.emitThreads 1
  -- A scan is one of the interleavings of the shares, and there are turns for each of them.
  scans : ∃ order, Interleaved (heap.portions listed) order ∧
    ScansAs heap type tag bound (heap.scanEvents tag (order.map Prod.snd))
  every : ∀ order, Interleaved (heap.portions listed) order →
    ∃ turns, ScansAs { heap with turns := turns } type tag bound (heap.scanEvents tag (order.map Prod.snd))
  reported : ∀ order, Interleaved (heap.portions listed) order → Reported heap listed order
  events : ∀ order : List HeapObject, heap.scanEvents tag order =
    List.replicate heap.emitNulls (.visited tag none) ++ (order.map fun object => .visited tag (some object)) ++
      if heap.failScans = false ∧ heap.skipCompletion = false then [.completed tag] else []
  tagged : ∀ order, ∀ event ∈ heap.scanEvents tag order, event.tag = tag
  fails : (∃ text, heap.result tag = .error (.error (.fault text))) ↔ heap.failScans = true
  succeeds : heap.failScans = false → heap.result tag = .ok ()

theorem scan_delivers (heap : SyntheticHeap) (type : HeapClass) (tag : Tag) (bound : UInt32) :
    Delivers heap type tag bound ((heap.below type).take bound.toNat) := by
  have listed : ∀ turns, ({ heap with turns := turns }.any type bound) = (heap.below type).take bound.toNat :=
    fun turns => any_eq_take { heap with turns := turns } type bound
  constructor
  case whole => exact heap.left_portions _
  case few => exact heap.portions_length_le _
  case scans =>
    obtain ⟨order, interleaved, emitted⟩ := emit_interleaved heap tag ((heap.below type).take bound.toNat)
    rw [← any_eq_take] at emitted
    exact ⟨order, interleaved, fun _ _ taken => scan_told taken emitted⟩
  case every =>
    intro order interleaved
    obtain ⟨turns, emitted⟩ := emit_as_interleaved heap tag interleaved
    rw [← listed turns] at emitted
    exact ⟨turns, fun _ _ taken => scan_told taken emitted⟩
  case reported => exact fun _ => interleaved_reported
  case events =>
    intro order
    rw [scanEvents, ending_eq, List.append_assoc]
    rfl
  case tagged => exact heap.scan_events_tagged tag
  case fails => exact heap.fails_iff tag
  case succeeds =>
    intro calm
    rw [result, calm]
    rfl

end SyntheticHeap

end HeapCensus
