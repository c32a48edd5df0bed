import HeapCensus.Census.ByName
import HeapCensus.SyntheticHeap
import HeapCensus.Proofs.Query
import HeapCensus.Proofs.Registry

set_option autoImplicit false

namespace HeapCensus.Query

variable {ω α β : Type}

def Leads (before : Session ω → Prop) (query : Query ω α) (after : Session ω → Prop) : Prop :=
  ∀ session, before session → after (query.perform session).2

theorem leads_pure {holds : Session ω → Prop} (value : α) : Leads holds (pure value : Query ω α) holds :=
  fun _ held => held

theorem leads_fail {holds : Session ω → Prop} (cause : QueryError) :
    Leads holds (fail cause : Query ω α) holds :=
  fun _ held => held

theorem leads_bind {before after : Session ω → Prop} (middle : Session ω → Prop) {query : Query ω α}
    {next : α → Query ω β} (first : Leads before query middle) (later : ∀ value, Leads middle (next value) after)
    (stopped : ∀ session, middle session → after session) : Leads before (query >>= next) after := by
  intro session held
  have reached := first session held
  rw [perform_bind]
  generalize query.perform session = performed at reached
  obtain ⟨outcome, between⟩ := performed
  cases outcome with
  | ok value => exact later value between reached
  | error failure => exact stopped between reached

theorem leads_stable {holds : Session ω → Prop} {query : Query ω α} {next : α → Query ω β}
    (first : Leads holds query holds) (later : ∀ value, Leads holds (next value) holds) :
    Leads holds (query >>= next) holds :=
  leads_bind holds first later fun _ held => held

theorem leads_step {before after : Session ω → Prop} {f : Session ω → α × Session ω}
    (step : ∀ session, before session → after (f session).2) : Leads before (Query.step f) after := by
  intro session held
  exact step session held

theorem leads_of_except {holds : Session ω → Prop} (given : Except QueryError α) :
    Leads holds (ofExcept given : Query ω α) holds := by
  cases given with
  | ok value => exact leads_pure value
  | error cause => exact leads_fail cause

theorem leads_call {holds : Session ω → Prop} {walk : Walk ω α}
    (kept : ∀ session, holds session → holds (session.setWorld (walk.call session.world).2)) :
    Leads holds (call walk) holds :=
  fun session held => kept session held

theorem leads_attempt {holds : Session ω → Prop} {walk : Walk ω α}
    (kept : ∀ session, holds session → holds (session.setWorld (walk.call session.world).2)) :
    Leads holds (attempt walk) holds :=
  fun session held => kept session held

structure Settled (objects : List HeapObject) (limit : Nat) (session : Session SyntheticHeap) : Prop where
  objects : session.world.objects = objects
  issued : ∃ amount, amount ≤ limit ∧ Registry.Issued amount session.census.registry

variable {objects : List HeapObject} {limit : Nat}

theorem settled_world {session : Session SyntheticHeap} (settled : Settled objects limit session)
    {heap : SyntheticHeap} (same : heap.objects = session.world.objects) :
    Settled objects limit (session.setWorld heap) :=
  ⟨same.trans settled.objects, settled.issued⟩

theorem settled_more {session : Session SyntheticHeap} (settled : Settled objects limit session) :
    Settled objects (limit + 1) session := by
  obtain ⟨amount, bounded, issued⟩ := settled.issued
  exact ⟨settled.objects, amount, Nat.le_succ_of_le bounded, issued⟩

theorem settled_take_tag (room : limit + 1 < UInt64.size) :
    Leads (Settled objects limit) (takeTag : Query SyntheticHeap Tag) (Settled objects (limit + 1)) := by
  refine leads_step fun session settled => ?_
  obtain ⟨amount, bounded, issued⟩ := settled.issued
  refine ⟨settled.objects, amount + 1, by omega, ?_⟩
  exact Registry.issued_take_tag issued (by omega)

theorem array_of_objects (heap : SyntheticHeap) (component : HeapClass) :
    (heap.arrayOf component).2.objects = heap.objects := by
  unfold SyntheticHeap.arrayOf
  split <;> rfl

theorem settled_array_class (component : HeapClass) :
    Leads (Settled objects limit) (attempt (SyntheticHeap.walker.arrayClass component))
      (Settled objects limit) :=
  leads_attempt fun _ settled => settled_world settled (array_of_objects _ component)

theorem settled_load_class (loader : Option HeapObject) (name : String) :
    Leads (Settled objects limit) (attempt (SyntheticHeap.walker.loadClass loader name))
      (Settled objects limit) :=
  leads_attempt fun _ settled => settled_world settled rfl

theorem settled_arrays_over (arrays components : List HeapClass) :
    Leads (Settled objects limit) (arraysOver SyntheticHeap.walker arrays components)
      (Settled objects limit) := by
  induction components generalizing arrays with
  | nil => exact leads_pure arrays
  | cons component components ih =>
      refine leads_stable (settled_array_class component) fun found => ?_
      cases found with
      | none => exact ih arrays
      | some array => exact ih (insertClass array arrays)

theorem settled_loaded_by (name : String) (types : List HeapClass) (loaders : List HeapObject) :
    Leads (Settled objects limit) (loadedBy SyntheticHeap.walker name types loaders)
      (Settled objects limit) := by
  induction loaders generalizing types with
  | nil => exact leads_pure types
  | cons loader loaders ih =>
      refine leads_stable (settled_load_class (some loader) name) fun found => ?_
      cases found with
      | none => exact ih types
      | some type => exact ih (insertClass type types)

theorem settled_instances (type : HeapClass) (max : Int) (room : limit + 1 < UInt64.size) :
    Leads (Settled objects limit) (instancesOfAny SyntheticHeap.walker type max)
      (Settled objects (limit + 1)) := by
  refine leads_bind (Settled objects limit) (leads_of_except _) (fun bound => ?_) fun _ => settled_more
  refine leads_bind (Settled objects (limit + 1)) (settled_take_tag room) (fun tag => ?_) fun _ held => held
  exact leads_call fun _ settled => settled_world settled rfl

theorem settled_resolve_base (base : String) (room : limit + 1 < UInt64.size) :
    Leads (Settled objects limit) (resolveBase SyntheticHeap.walker base)
      (Settled objects (limit + 1)) := by
  unfold resolveBase
  split
  · refine leads_bind (Settled objects limit) ?_ (fun type => ?_) fun _ => settled_more
    · exact leads_step fun _ settled => settled_world settled rfl
    · exact fun _ => settled_more
  · refine leads_bind (Settled objects limit) (settled_load_class none base) (fun own => ?_) fun _ => settled_more
    refine leads_bind (Settled objects limit) ?_ (fun loaderClass => ?_) fun _ => settled_more
    · exact leads_call fun _ settled => settled_world settled rfl
    · refine leads_bind _ (settled_instances loaderClass 0 room) (fun loaders => ?_) fun _ held => held
      exact settled_loaded_by base own.toList loaders

theorem settled_resolve_dimensions (base : String) (dimensions : Nat) (room : limit + 1 < UInt64.size) :
    Leads (Settled objects limit) (resolveDimensions SyntheticHeap.walker base dimensions)
      (Settled objects (limit + 1)) := by
  induction dimensions with
  | zero => exact settled_resolve_base base room
  | succ dimensions ih =>
      exact leads_bind _ ih (fun components => settled_arrays_over [] components) fun _ held => held

theorem settled_consult (f : Resolutions → Nat → α × Resolutions) :
    Leads (Settled objects limit) (consult f) (Settled objects limit) :=
  leads_step fun _ settled => ⟨settled.objects, settled.issued⟩

theorem settled_resolve (name : String) (room : limit + 1 < UInt64.size) :
    Leads (Settled objects limit) (resolve SyntheticHeap.walker name) (Settled objects (limit + 1)) := by
  refine leads_bind (Settled objects limit) (leads_of_except _) (fun parsed => ?_) fun _ => settled_more
  refine leads_bind (Settled objects limit) (settled_consult _) (fun remembered => ?_) fun _ => settled_more
  cases remembered with
  | some types => exact fun _ => settled_more
  | none =>
      refine leads_bind _ (settled_resolve_dimensions parsed.base parsed.dimensions room) (fun types => ?_)
        fun _ held => held
      exact leads_stable (settled_consult _) fun _ => leads_pure types

end HeapCensus.Query
