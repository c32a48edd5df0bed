import HeapCensus.SyntheticHeap
import Mathlib.Data.List.Flatten
import Mathlib.Data.List.Nodup
import Mathlib.Data.List.Perm.Basic

set_option autoImplicit false

namespace HeapCensus

/-- The reports that a part of a scan makes when all of them are taken, and its result. Such a part neither
reads nor changes a state. -/
inductive Tells {ω α : Type} : Dialogue ω ScanEvent SinkReply α → List ScanEvent → α → Prop
  | stop (result : α) : Tells (.stop result) [] result
  | call (event : ScanEvent) (resume : SinkReply → Dialogue ω ScanEvent SinkReply α)
      (events : List ScanEvent) (result : α) :
      Tells (resume .taken) events result → Tells (.call event resume) (event :: events) result

theorem tells_bind {ω α β : Type} {part : Reporting ω α} {next : α → Reporting ω β}
    {events more : List ScanEvent} {value : α} {result : Outcome WalkerError β}
    (first : Tells part.run events (.ok value)) (later : Tells (next value).run more result) :
    Tells (part >>= next).run (events ++ more) result := by
  change Tells (Dialogue.bind part.run (ExceptT.bindCont next)) (events ++ more) result
  generalize reached : (Except.ok value : Outcome WalkerError α) = ended at first
  generalize part.run = dialogue at first
  induction first with
  | stop outcome =>
      subst reached
      exact later
  | call event resume events outcome _ ih => exact .call event _ _ _ (ih reached)

theorem tells_report {ω : Type} (event : ScanEvent) :
    Tells (Reporting.report event : Reporting ω Unit).run [event] (.ok ()) :=
  .call event _ [] _ (.stop _)

namespace SyntheticHeap

theorem sift_eq_filter (test : HeapClass → Bool)
    (respects : ∀ first second : HeapClass, first.id = second.id → test first = test second)
    (known : List (ClassId × Bool)) (objects : List HeapObject)
    (right : ∀ entry ∈ known, ∀ type : HeapClass, type.id = entry.1 → test type = entry.2) :
    sift test known objects = objects.filter fun object => test object.type := by
  induction objects generalizing known with
  | nil => rfl
  | cons object objects ih =>
      cases found : known.find? fun entry => entry.1 = object.type.id with
      | some entry =>
          have named : entry.1 = object.type.id := by simpa using List.find?_some found
          have answer := right entry (List.mem_of_find?_eq_some found) object.type named.symm
          rw [sift, found, List.filter_cons, answer, ih known right]
      | none =>
          have learned : ∀ entry ∈ (object.type.id, test object.type) :: known,
              ∀ type : HeapClass, type.id = entry.1 → test type = entry.2 := by
            intro entry member type same
            rcases List.mem_cons.mp member with rfl | before
            · exact respects type object.type same
            · exact right entry before type same
          simp only [sift, found, List.filter_cons, ih _ learned]

def below (heap : SyntheticHeap) (type : HeapClass) : List HeapObject :=
  heap.objects.filter fun object => heap.isSubtype object.type type

theorem any_eq_take (heap : SyntheticHeap) (type : HeapClass) (max : UInt32) :
    heap.any type max = (heap.below type).take max.toNat := by
  rw [any, sift_eq_filter _ ?_ [] heap.objects ?_, below]
  · intro first second same
    rw [isSubtype, isSubtype, same]
  · intro entry member
    cases member

theorem length_below_le (heap : SyntheticHeap) (type : HeapClass) :
    (heap.below type).length ≤ heap.objects.length :=
  List.length_filter_le _ _

theorem any_unbounded (heap : SyntheticHeap) (type : HeapClass)
    (few : heap.objects.length < UInt32.size) : heap.any type unbounded = heap.below type := by
  rw [any_eq_take]
  refine List.take_of_length_le ?_
  have fewer := length_below_le heap type
  have whole : unbounded.toNat = UInt32.size - 1 := by decide
  omega

def left (shares : List Share) : List HeapObject := shares.flatMap Prod.snd

theorem left_append (before after : List Share) : left (before ++ after) = left before ++ left after :=
  List.flatMap_append

theorem left_cons (share : Share) (shares : List Share) : left (share :: shares) = share.2 ++ left shares :=
  List.flatMap_cons

theorem take_turn_none {turn : Nat} {shares : List Share} (through : takeTurn turn shares = none) :
    left shares = [] := by
  induction turn, shares using takeTurn.induct with
  | case1 turn => rfl
  | case2 turn thread shares ih =>
      rw [takeTurn] at through
      exact ih through
  | case3 thread object rest shares => simp [takeTurn] at through
  | case4 turn thread object rest shares taken others later ih => simp [takeTurn, later] at through
  | case5 turn thread object rest shares later ih => simp [takeTurn, later] at through

def live (shares : List Share) : List Share := shares.filter fun share => !share.2.isEmpty

inductive Interleaved : List Share → List (Nat × HeapObject) → Prop
  | through (shares : List Share) : left shares = [] → Interleaved shares []
  | turn (before after : List Share) (thread : Nat) (object : HeapObject) (rest : List HeapObject)
      (order : List (Nat × HeapObject)) :
      Interleaved (before ++ (thread, rest) :: after) order →
      Interleaved (before ++ (thread, object :: rest) :: after) ((thread, object) :: order)

theorem interleaved_perm {shares : List Share} {order : List (Nat × HeapObject)}
    (interleaved : Interleaved shares order) : (order.map Prod.snd).Perm (left shares) := by
  induction interleaved with
  | through shares none =>
      rw [none]
      exact .nil
  | turn before after thread object rest order _ ih =>
      have moved := ih.cons object
      rw [left_append, left_cons] at moved ⊢
      exact moved.trans List.perm_middle.symm

theorem interleaved_length {shares : List Share} {order : List (Nat × HeapObject)}
    (interleaved : Interleaved shares order) : order.length = (left shares).length := by
  rw [← (interleaved_perm interleaved).length_eq, List.length_map]

theorem interleaved_share {shares : List Share} {order : List (Nat × HeapObject)}
    (interleaved : Interleaved shares order) (threads : (shares.map Prod.fst).Nodup) {share : Share}
    (member : share ∈ shares) : (order.filter fun report => report.1 = share.1).map Prod.snd = share.2 := by
  induction interleaved generalizing share with
  | through shares none => exact (List.flatMap_eq_nil_iff.mp none share member).symm
  | turn before after thread object rest order _ ih =>
      have same : ((before ++ (thread, rest) :: after).map Prod.fst) =
          (before ++ (thread, object :: rest) :: after).map Prod.fst := by simp
      have later : ∀ share ∈ before ++ (thread, rest) :: after,
          (order.filter fun report => report.1 = share.1).map Prod.snd = share.2 :=
        fun _ => ih (same ▸ threads)
      by_cases here : share.1 = thread
      · have own := List.inj_on_of_nodup_map threads member (List.mem_append_right before List.mem_cons_self) here
        subst own
        have others := later (thread, rest) (List.mem_append_right before List.mem_cons_self)
        simp [others]
      · have other : ¬ thread = share.1 := fun equal => here equal.symm
        rw [List.filter_cons_of_neg (by simpa using other)]
        apply later
        rcases List.mem_append.mp member with ahead | behind
        · exact List.mem_append_left _ ahead
        · rcases List.mem_cons.mp behind with rfl | behind
          · exact absurd rfl here
          · exact List.mem_append_right before (List.mem_cons_of_mem _ behind)

theorem live_cons (thread : Nat) (object : HeapObject) (rest : List HeapObject) (shares : List Share) :
    live ((thread, object :: rest) :: shares) = (thread, object :: rest) :: live shares := rfl

theorem live_append (before after : List Share) : live (before ++ after) = live before ++ live after :=
  List.filter_append ..

theorem live_cons_live (share : Share) (shares : List Share) :
    live (share :: live shares) = live (share :: shares) := by
  have again : live (live shares) = live shares := by simp [live]
  have first : ∀ others : List Share, live (share :: others) = live [share] ++ live others :=
    live_append [share]
  rw [first (live shares), first shares, again]

theorem left_live (shares : List Share) : left (live shares) = left shares := by
  induction shares with
  | nil => rfl
  | cons share shares ih =>
      obtain ⟨thread, objects⟩ := share
      cases objects with
      | nil => exact ih
      | cons object rest => rw [live_cons, left_cons, left_cons, ih]

theorem take_turn_split {turn : Nat} {shares others : List Share} {thread : Nat} {object : HeapObject}
    (turned : takeTurn turn shares = some ((thread, object), others)) :
    ∃ before after rest, shares = before ++ (thread, object :: rest) :: after ∧
      live others = live (before ++ (thread, rest) :: after) := by
  induction turn, shares using takeTurn.induct generalizing others with
  | case1 turn => simp [takeTurn] at turned
  | case2 turn idle shares ih =>
      rw [takeTurn] at turned
      obtain ⟨before, after, rest, rfl, same⟩ := ih turned
      exact ⟨(idle, []) :: before, after, rest, rfl, same⟩
  | case3 first head tail shares =>
      simp only [takeTurn, Option.some.injEq, Prod.mk.injEq] at turned
      obtain ⟨⟨rfl, rfl⟩, rfl⟩ := turned
      exact ⟨[], shares, tail, rfl, rfl⟩
  | case4 turn first head tail shares taken remaining later ih =>
      simp only [takeTurn, later, Option.some.injEq, Prod.mk.injEq] at turned
      obtain ⟨rfl, rfl⟩ := turned
      obtain ⟨before, after, rest, rfl, same⟩ := ih later
      refine ⟨(first, head :: tail) :: before, after, rest, rfl, ?_⟩
      rw [live_cons, same]
      rfl
  | case5 turn first head tail shares later ih =>
      simp only [takeTurn, later, Option.some.injEq, Prod.mk.injEq] at turned
      obtain ⟨⟨rfl, rfl⟩, rfl⟩ := turned
      exact ⟨[], shares, tail, rfl, rfl⟩

theorem live_split {shares before after : List Share} {thread : Nat} {object : HeapObject} {rest : List HeapObject}
    (same : live shares = live (before ++ (thread, object :: rest) :: after)) :
    ∃ front back, shares = front ++ (thread, object :: rest) :: back ∧ live front = live before ∧
      live back = live after := by
  rw [live_append, live_cons] at same
  obtain ⟨front, others, rfl, first, second⟩ := List.filter_eq_append_iff.mp same
  obtain ⟨through, back, rfl, idle, _, last⟩ := List.filter_eq_cons_iff.mp second
  have none : live through = [] := List.filter_eq_nil_iff.mpr idle
  refine ⟨front ++ through, back, ?_, ?_, last⟩
  · rw [List.append_assoc]
  · rw [live_append, none, List.append_nil]
    exact first

theorem interleaved_live {shares others : List Share} {order : List (Nat × HeapObject)}
    (interleaved : Interleaved shares order) (same : live others = live shares) : Interleaved others order := by
  induction interleaved generalizing others with
  | through shares none =>
      apply Interleaved.through
      rw [← left_live, same, left_live]
      exact none
  | turn before after thread object rest order _ ih =>
      obtain ⟨front, back, rfl, first, last⟩ := live_split same
      apply Interleaved.turn
      apply ih
      rw [live_append, live_append, first, ← live_cons_live, last, live_cons_live]

theorem interleave_interleaved (amount : Nat) (turns : List Nat) (shares : List Share)
    (enough : (left shares).length ≤ amount) : Interleaved shares (interleave amount turns shares) := by
  induction amount generalizing turns shares with
  | zero => exact .through shares (List.length_eq_zero_iff.mp (Nat.le_zero.mp enough))
  | succ amount ih =>
      cases turned : takeTurn (turns.headD 0) shares with
      | none =>
          rw [interleave, turned]
          exact .through shares (take_turn_none turned)
      | some result =>
          obtain ⟨⟨thread, object⟩, others⟩ := result
          obtain ⟨before, after, rest, rfl, same⟩ := take_turn_split turned
          have fewer : (left others).length ≤ amount := by
            rw [← left_live, same, left_live]
            simp only [left_append, left_cons, List.length_append, List.length_cons] at enough ⊢
            omega
          rw [interleave, turned]
          exact .turn before after thread object rest _ (interleaved_live (ih turns.tail others fewer) same.symm)

theorem take_turn_live {shares front back : List Share} {thread : Nat} {object : HeapObject}
    {rest : List HeapObject} (same : live shares = front ++ (thread, object :: rest) :: back) :
    ∃ others, takeTurn front.length shares = some ((thread, object), others) ∧
      live others = front ++ live ((thread, rest) :: back) := by
  induction shares generalizing front with
  | nil => cases front <;> cases same
  | cons share shares ih =>
      obtain ⟨first, objects⟩ := share
      cases objects with
      | nil =>
          rw [takeTurn]
          exact ih same
      | cons head tail =>
          rw [live_cons] at same
          cases front with
          | nil =>
              obtain ⟨here, behind⟩ := List.cons.inj same
              cases here
              refine ⟨(thread, rest) :: shares, rfl, ?_⟩
              rw [← behind, live_cons_live]
              rfl
          | cons ahead front =>
              obtain ⟨rfl, behind⟩ := List.cons.inj same
              obtain ⟨others, taken, remaining⟩ := ih behind
              refine ⟨(first, head :: tail) :: others, ?_, ?_⟩
              · rw [List.length_cons, takeTurn, taken]
              · rw [live_cons, remaining]
                rfl

theorem interleave_turns {shares : List Share} {order : List (Nat × HeapObject)}
    (interleaved : Interleaved shares order) {others : List Share} (same : live others = live shares) :
    ∃ turns, interleave order.length turns others = order := by
  induction interleaved generalizing others with
  | through shares none => exact ⟨[], rfl⟩
  | turn before after thread object rest order _ ih =>
      rw [live_append, live_cons] at same
      obtain ⟨remaining, taken, later⟩ := take_turn_live same
      have kept : live remaining = live (before ++ (thread, rest) :: after) := by
        rw [later, live_append, live_cons_live]
      obtain ⟨turns, found⟩ := ih kept
      refine ⟨(live before).length :: turns, ?_⟩
      rw [List.length_cons, interleave, List.headD_cons, taken]
      exact congrArg _ found

theorem chunks_flatten (length amount : Nat) (objects : List HeapObject) (positive : 0 < length)
    (enough : objects.length ≤ amount) : (chunks length amount objects).flatten = objects := by
  induction amount generalizing objects with
  | zero =>
      rw [List.length_eq_zero_iff.mp (Nat.le_zero.mp enough)]
      rfl
  | succ amount ih =>
      cases objects with
      | nil => rfl
      | cons object objects =>
          have fewer : ((object :: objects).drop length).length ≤ amount := by
            rw [List.length_drop]
            omega
          rw [chunks, List.flatten_cons, ih _ fewer]
          exact List.take_append_drop length (object :: objects)

theorem chunks_length_le (length amount threads : Nat) (objects : List HeapObject)
    (room : objects.length ≤ length * threads) : (chunks length amount objects).length ≤ threads := by
  induction amount generalizing threads objects with
  | zero => exact Nat.zero_le _
  | succ amount ih =>
      cases objects with
      | nil => exact Nat.zero_le _
      | cons object objects =>
          cases threads with
          | zero => cases room
          | succ threads =>
              apply Nat.succ_le_succ
              apply ih
              rw [List.length_drop]
              rw [Nat.mul_succ] at room
              omega

theorem length_le_ceil (amount threads : Nat) (positive : 0 < threads) :
    amount ≤ (amount + threads - 1) / threads * threads := by
  have above := Nat.lt_div_mul_add (a := amount + threads - 1) positive
  omega

def visited (tag : Tag) (objects : List HeapObject) : List ScanEvent :=
  objects.map fun object => .visited tag (some object)

theorem report_all_tells (tag : Tag) (objects : List HeapObject) :
    Tells (reportAll tag objects).run (visited tag objects) (.ok ()) := by
  induction objects with
  | nil => exact .stop _
  | cons object objects ih => exact tells_bind (tells_report (.visited tag (some object))) ih

theorem report_shared_tells (tag : Tag) (reports : List (Nat × HeapObject)) :
    Tells (reportShared tag [] reports).run (visited tag (reports.map Prod.snd)) (.ok ()) := by
  induction reports with
  | nil => exact .stop _
  | cons report reports ih => exact .call _ _ _ _ ih

theorem report_nulls_tells (tag : Tag) (amount : Nat) :
    Tells (reportNulls tag amount).run (List.replicate amount (.visited tag none)) (.ok ()) := by
  induction amount with
  | zero => exact .stop _
  | succ amount ih => exact tells_bind (tells_report (.visited tag none)) ih

theorem left_zip_idx (shares : List (List HeapObject)) (first : Nat) :
    left ((shares.zipIdx first).map fun (share, thread) => (thread, share)) = shares.flatten := by
  induction shares generalizing first with
  | nil => rfl
  | cons share shares ih =>
      rw [List.zipIdx_cons, List.map_cons, List.flatten_cons, ← ih (first + 1)]
      rfl

def sharesOf (heap : SyntheticHeap) (objects : List HeapObject) : List Share :=
  let length := (objects.length + heap.emitThreads - 1) / heap.emitThreads
  (chunks length objects.length objects).zipIdx.map fun (share, thread) => (thread, share)

theorem left_shares_of (heap : SyntheticHeap) (objects : List HeapObject) (several : 1 < heap.emitThreads)
    (more : 1 < objects.length) : left (heap.sharesOf objects) = objects := by
  have positive : 0 < (objects.length + heap.emitThreads - 1) / heap.emitThreads :=
    Nat.div_pos (by omega) (by omega)
  exact (left_zip_idx _ 0).trans (chunks_flatten _ objects.length objects positive (Nat.le_refl _))

theorem emit_shared (heap : SyntheticHeap) (tag : Tag) (objects : List HeapObject)
    (several : 1 < heap.emitThreads) (more : 1 < objects.length) :
    heap.emit tag objects =
      reportShared tag [] (interleave objects.length (heap.turns tag) (heap.sharesOf objects)) := by
  refine if_neg ?_
  rw [Bool.or_eq_true, decide_eq_true_eq, decide_eq_true_eq]
  omega

theorem emit_alone (heap : SyntheticHeap) (tag : Tag) (objects : List HeapObject)
    (alone : ¬ (1 < heap.emitThreads ∧ 1 < objects.length)) : heap.emit tag objects = reportAll tag objects := by
  apply if_pos
  rw [Bool.or_eq_true, decide_eq_true_eq, decide_eq_true_eq]
  omega

/-- Who reports what: the shares of the threads, or the whole list where it is not shared out. -/
def portions (heap : SyntheticHeap) (objects : List HeapObject) : List Share :=
  if 1 < heap.emitThreads ∧ 1 < objects.length then heap.sharesOf objects else [(0, objects)]

theorem left_portions (heap : SyntheticHeap) (objects : List HeapObject) :
    left (heap.portions objects) = objects := by
  by_cases enough : 1 < heap.emitThreads ∧ 1 < objects.length
  · rw [portions, if_pos enough]
    exact left_shares_of heap objects enough.1 enough.2
  · rw [portions, if_neg enough]
    exact List.append_nil objects

theorem alone_interleaved (thread : Nat) (objects : List HeapObject) :
    Interleaved [(thread, objects)] (objects.map (Prod.mk thread)) := by
  induction objects with
  | nil => exact .through _ rfl
  | cons object objects ih => exact .turn [] [] thread object objects _ ih

theorem emit_interleaved (heap : SyntheticHeap) (tag : Tag) (objects : List HeapObject) :
    ∃ order, Interleaved (heap.portions objects) order ∧
      Tells (heap.emit tag objects).run (visited tag (order.map Prod.snd)) (.ok ()) := by
  by_cases enough : 1 < heap.emitThreads ∧ 1 < objects.length
  · have whole := left_shares_of heap objects enough.1 enough.2
    have interleaved := interleave_interleaved objects.length (heap.turns tag) (heap.sharesOf objects)
      (Nat.le_of_eq (congrArg List.length whole))
    rw [portions, if_pos enough, emit_shared heap tag objects enough.1 enough.2]
    exact ⟨_, interleaved, report_shared_tells tag _⟩
  · have same : (objects.map (Prod.mk 0)).map Prod.snd = objects := by
      rw [List.map_map]
      exact List.map_id objects
    rw [portions, if_neg enough, emit_alone heap tag objects enough]
    refine ⟨_, alone_interleaved 0 objects, ?_⟩
    rw [same]
    exact report_all_tells tag objects

theorem emit_tells (heap : SyntheticHeap) (tag : Tag) (objects : List HeapObject) :
    ∃ order, List.Perm order objects ∧ Tells (heap.emit tag objects).run (visited tag order) (.ok ()) := by
  obtain ⟨order, interleaved, emitted⟩ := emit_interleaved heap tag objects
  have reported := interleaved_perm interleaved
  rw [left_portions] at reported
  exact ⟨_, reported, emitted⟩

theorem emit_in_order (heap : SyntheticHeap) (tag : Tag) {objects : List HeapObject}
    {order : List (Nat × HeapObject)} (several : 1 < heap.emitThreads) (more : 1 < objects.length)
    (interleaved : Interleaved (heap.sharesOf objects) order) :
    ∃ turns, Tells ({ heap with turns := turns }.emit tag objects).run (visited tag (order.map Prod.snd))
      (.ok ()) := by
  obtain ⟨turns, found⟩ := interleave_turns interleaved rfl
  have amount : order.length = objects.length :=
    (interleaved_length interleaved).trans (congrArg List.length (left_shares_of heap objects several more))
  refine ⟨fun _ => turns, ?_⟩
  rw [emit_shared { heap with turns := fun _ => turns } tag objects several more]
  change Tells (reportShared tag [] (interleave objects.length turns (heap.sharesOf objects))).run _ _
  rw [← amount, found]
  exact report_shared_tells tag order

def reports (heap : SyntheticHeap) (type : HeapClass) (tag : Tag) (max : UInt32) :
    Reporting SyntheticHeap Unit := do
  reportNulls tag heap.emitNulls
  heap.emit tag (heap.any type max)
  if heap.failScans then
    Reporting.fail (.fault ("Injected failure in scan " ++ tag.render))
  else if heap.skipCompletion then pure ()
  else Reporting.report (.completed tag)

def ending (heap : SyntheticHeap) (tag : Tag) : List ScanEvent :=
  if heap.failScans || heap.skipCompletion then [] else [.completed tag]

def result (heap : SyntheticHeap) (tag : Tag) : Outcome WalkerError Unit :=
  if heap.failScans then Outcome.fail (.fault ("Injected failure in scan " ++ tag.render)) else .ok ()

theorem reports_emitted {heap : SyntheticHeap} {type : HeapClass} {tag : Tag} {max : UInt32}
    {order : List HeapObject}
    (emitted : Tells (heap.emit tag (heap.any type max)).run (visited tag order) (.ok ())) :
    Tells (heap.reports type tag max).run
      (List.replicate heap.emitNulls (.visited tag none) ++ (visited tag order ++ heap.ending tag))
      (heap.result tag) := by
  have nulls := report_nulls_tells tag heap.emitNulls
  refine tells_bind nulls (tells_bind emitted ?_)
  unfold ending result
  cases fails : heap.failScans with
  | true => exact .stop _
  | false =>
      cases skips : heap.skipCompletion with
      | true => exact .stop _
      | false => exact tells_report (.completed tag)

theorem reports_tells (heap : SyntheticHeap) (type : HeapClass) (tag : Tag) (max : UInt32) :
    ∃ order, List.Perm order (heap.any type max) ∧
      Tells (heap.reports type tag max).run
        (List.replicate heap.emitNulls (.visited tag none) ++ (visited tag order ++ heap.ending tag))
        (heap.result tag) := by
  obtain ⟨order, same, emitted⟩ := emit_tells heap tag (heap.any type max)
  exact ⟨order, same, reports_emitted emitted⟩

end SyntheticHeap

end HeapCensus
