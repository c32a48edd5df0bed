import HeapCensus.Proofs.Activity
import HeapCensus.Proofs.ScanHistory

set_option autoImplicit false

namespace HeapCensus.Registry

structure Share where
  needed : Nat
  scan : Option (Tag × Account)
  timed : Nat

namespace Share

def opened (share : Share) : Nat := if share.scan.isSome then 1 else 0

def tag? (share : Share) : Option Tag := share.scan.map Prod.fst

end Share

def Owns (registry : Registry) (share : Share) : Prop :=
  ∀ tag account, share.scan = some (tag, account) →
    ∃ entry, registry.entryAt tag = some entry ∧ Matches account entry

structure Shared (before registry : Registry) (shares : List Share) : Prop where
  issued : ∃ amount, Issued amount registry ∧ amount + (shares.map Share.needed).sum < UInt64.size
  owned : ∀ share ∈ shares, Owns registry share
  apart : ∀ (place other : Nat) (share neighbour : Share), shares[place]? = some share →
    shares[other]? = some neighbour → place ≠ other →
      ∀ tag, share.tag? = some tag → neighbour.tag? ≠ some tag
  inFlight : registry.inFlight = before.inFlight + (shares.map Share.opened).sum
  strays : registry.strays = before.strays
  timed : registry.latency.count = before.latency.count + (shares.map Share.timed).sum

structure Moves (amount : Nat) (registry after : Registry) (old new : Share) : Prop where
  issued : ∃ later, Issued later after ∧ later + new.needed = amount + old.needed
  owned : Owns after new
  others : ∀ tag, old.tag? ≠ some tag → new.tag? ≠ some tag → after.entryAt tag = registry.entryAt tag
  fresh : ∀ tag, new.tag? = some tag → old.tag? = some tag ∨ registry.entryAt tag = none
  inFlight : after.inFlight + old.opened = registry.inFlight + new.opened
  strays : after.strays = registry.strays
  timed : after.latency.count + old.timed = registry.latency.count + new.timed

theorem sum_set {ω : Type} (measure : ω → Nat) (list : List ω) (place : Nat) (old new : ω)
    (present : list[place]? = some old) :
    ((list.set place new).map measure).sum + measure old = (list.map measure).sum + measure new := by
  induction list generalizing place with
  | nil => simp at present
  | cons first rest ih =>
      cases place with
      | zero =>
          obtain rfl := Option.some.inj present
          simp only [List.set_cons_zero, List.map_cons, List.sum_cons]
          omega
      | succ place =>
          have smaller := ih place present
          simp only [List.set_cons_succ, List.map_cons, List.sum_cons]
          omega

theorem tag_of_scan {share : Share} {tag : Tag} {account : Account}
    (scan : share.scan = some (tag, account)) : share.tag? = some tag := by
  simp [Share.tag?, scan]

theorem scan_of_tag {share : Share} {tag : Tag} (named : share.tag? = some tag) :
    ∃ account, share.scan = some (tag, account) := by
  obtain ⟨scan, held, same⟩ := Option.map_eq_some_iff.mp named
  exact ⟨scan.2, by rw [held, ← same]⟩

section Moves

variable {before registry after : Registry} {shares : List Share} {place amount : Nat} {old new : Share}

theorem tag_moves (shared : Shared before registry shares) (mine : shares[place]? = some old)
    (moved : Moves amount registry after old new) {other : Nat} {neighbour : Share}
    (theirs : shares[other]? = some neighbour) (differs : place ≠ other) {tag : Tag}
    (named : new.tag? = some tag) : neighbour.tag? ≠ some tag := by
  intro clash
  rcases moved.fresh tag named with kept | free
  · exact shared.apart place other old neighbour mine theirs differs tag kept clash
  · obtain ⟨account, scan⟩ := scan_of_tag clash
    obtain ⟨entry, held, _⟩ := shared.owned neighbour (List.mem_of_getElem? theirs) tag account scan
    simp [free] at held

theorem owned_moves (shared : Shared before registry shares) (mine : shares[place]? = some old)
    (moved : Moves amount registry after old new) (share : Share) (member : share ∈ shares.set place new) :
    Owns after share := by
  obtain ⟨other, theirs⟩ := List.mem_iff_getElem?.mp member
  by_cases same : place = other
  · subst same
    rw [List.getElem?_set_self (List.getElem?_eq_some_iff.mp mine).1] at theirs
    obtain rfl := Option.some.inj theirs
    exact moved.owned
  · rw [List.getElem?_set_ne same] at theirs
    intro tag account scan
    obtain ⟨entry, held, matched⟩ := shared.owned share (List.mem_of_getElem? theirs) tag account scan
    have named := tag_of_scan scan
    have untouched := moved.others tag
      (fun clash => shared.apart place other old share mine theirs same tag clash named)
      (fun clash => tag_moves shared mine moved theirs same clash named)
    exact ⟨entry, untouched.trans held, matched⟩

theorem apart_moves (shared : Shared before registry shares) (mine : shares[place]? = some old)
    (moved : Moves amount registry after old new) (first second : Nat) (share neighbour : Share)
    (ours : (shares.set place new)[first]? = some share)
    (theirs : (shares.set place new)[second]? = some neighbour) (differs : first ≠ second) (tag : Tag)
    (named : share.tag? = some tag) : neighbour.tag? ≠ some tag := by
  by_cases here : place = first
  · subst here
    rw [List.getElem?_set_self (List.getElem?_eq_some_iff.mp mine).1] at ours
    obtain rfl := Option.some.inj ours
    rw [List.getElem?_set_ne differs] at theirs
    exact tag_moves shared mine moved theirs differs named
  · rw [List.getElem?_set_ne here] at ours
    by_cases there : place = second
    · subst there
      rw [List.getElem?_set_self (List.getElem?_eq_some_iff.mp mine).1] at theirs
      obtain rfl := Option.some.inj theirs
      exact fun clash => tag_moves shared mine moved ours here clash named
    · rw [List.getElem?_set_ne there] at theirs
      exact shared.apart first second share neighbour ours theirs differs tag named

theorem shared_moves (shared : Shared before registry shares) (mine : shares[place]? = some old)
    (moves : ∀ amount, Issued amount registry → amount + old.needed < UInt64.size →
      Moves amount registry after old new) :
    Shared before after (shares.set place new) := by
  obtain ⟨amount, issued, room⟩ := shared.issued
  have needed := sum_set Share.needed shares place old new mine
  have opened := sum_set Share.opened shares place old new mine
  have timed := sum_set Share.timed shares place old new mine
  have among : old.needed ≤ (shares.map Share.needed).sum :=
    List.le_sum_of_mem (List.mem_map_of_mem (List.mem_of_getElem? mine))
  have moved := moves amount issued (by omega)
  refine ⟨?_, owned_moves shared mine moved, apart_moves shared mine moved, ?_,
    moved.strays.trans shared.strays, ?_⟩
  · obtain ⟨later, issuedAfter, used⟩ := moved.issued
    exact ⟨later, issuedAfter, by omega⟩
  · have balance := moved.inFlight
    have counted := shared.inFlight
    omega
  · have balance := moved.timed
    have counted := shared.timed
    omega

end Moves

theorem moves_nothing {amount : Nat} {registry : Registry} {share : Share}
    (issued : Issued amount registry) (owned : Owns registry share) :
    Moves amount registry registry share share :=
  ⟨⟨amount, issued, rfl⟩, owned, fun _ _ _ => rfl, fun _ named => .inl named, rfl, rfl, rfl⟩

theorem moves_take {amount needed timed : Nat} {registry : Registry} {scan : Option (Tag × Account)}
    (issued : Issued amount registry) (room : amount + (needed + 1) < UInt64.size)
    (owned : Owns registry ⟨needed + 1, scan, timed⟩) :
    Moves amount registry registry.takeTag.2 ⟨needed + 1, scan, timed⟩ ⟨needed, scan, timed⟩ := by
  refine ⟨⟨amount + 1, issued_take_tag issued (by omega), ?_⟩, owned, ?_, ?_, rfl, rfl, rfl⟩
  · exact Nat.add_right_comm amount 1 needed
  · exact fun _ _ _ => rfl
  · exact fun _ named => .inl named

theorem moves_begin {amount needed timed : Nat} {registry : Registry} (target : HeapClass) (now : Nat)
    (issued : Issued amount registry) (room : amount + (needed + 1) < UInt64.size) :
    Moves amount registry (registry.begin target now).2 ⟨needed + 1, none, timed⟩
      ⟨needed, some (registry.nextTag, Account.fresh target), timed⟩ := by
  have free := next_tag_free issued (by omega)
  refine ⟨⟨amount + 1, issued_begin issued (by omega) target now, ?_⟩, ?_, ?_, ?_, ?_, rfl, rfl⟩
  · exact Nat.add_right_comm amount 1 needed
  · intro tag account scan
    obtain ⟨rfl, rfl⟩ := Prod.mk.inj (Option.some.inj scan)
    refine ⟨ScanEntry.fresh target now, ?_, matches_fresh target now⟩
    rw [entry_begin, if_pos rfl]
  · intro tag _ differs
    have other : tag ≠ registry.nextTag := by
      intro same
      exact differs (by simp [Share.tag?, same])
    rw [entry_begin, if_neg other]
  · intro tag named
    obtain rfl := Option.some.inj named
    exact .inr free
  · rw [in_flight_begin registry target now free]
    simp [Share.opened]

theorem moves_change {amount needed timed : Nat} (more : Nat) {registry after : Registry} {tag : Tag}
    {account changed : Account} {entry next : ScanEntry} (issued : Issued amount registry)
    (held : registry.entryAt tag = some entry) (tags : after.tags = registry.tags)
    (entries : ∀ other, after.entryAt other = (registry.replace tag next).entryAt other)
    (matched : Matches changed next) (inFlight : after.inFlight = registry.inFlight)
    (strays : after.strays = registry.strays)
    (latencies : after.latency.count = registry.latency.count + more) :
    Moves amount registry after ⟨needed, some (tag, account), timed⟩
      ⟨needed, some (tag, changed), timed + more⟩ := by
  refine ⟨⟨amount, issued_kept issued tags ?_, rfl⟩, ?_, ?_, ?_, ?_, strays, ?_⟩
  · intro other opened
    rw [entries] at opened
    exact open_before_replace held next other opened
  · intro other account scan
    obtain ⟨rfl, rfl⟩ := Prod.mk.inj (Option.some.inj scan)
    refine ⟨next, ?_, matched⟩
    rw [entries, entry_replace, if_pos rfl, held]
    rfl
  · intro other differs _
    have apart : other ≠ tag := by
      intro same
      exact differs (by simp [Share.tag?, same])
    rw [entries, entry_replace, if_neg apart]
  · exact fun _ named => .inl named
  · simp [Share.opened, inFlight]
  · simp only [latencies]
    omega

theorem moves_visit {amount needed timed : Nat} {registry : Registry} {tag : Tag} {account : Account}
    (object : HeapObject) (issued : Issued amount registry)
    (owned : Owns registry ⟨needed, some (tag, account), timed⟩)
    (unfinished : account.complete = false) :
    Moves amount registry (registry.visit tag (some object)) ⟨needed, some (tag, account), timed⟩
      ⟨needed, some (tag, account.count object), timed⟩ := by
  obtain ⟨entry, held, matched⟩ := owned tag account rfl
  have counting := matches_count object account entry matched
  have same : entry.isComplete = false := matched.complete.trans unfinished
  have counted : entry.visited object = entry.count object := by simp [ScanEntry.visited, same]
  rw [visit_open held same]
  exact moves_change 0 issued held rfl (fun _ => rfl) (counted ▸ counting)
    (in_flight_replace registry tag _) rfl rfl

theorem moves_complete {amount needed timed : Nat} {registry : Registry} {tag : Tag}
    {account : Account} (now : Nat) (issued : Issued amount registry)
    (owned : Owns registry ⟨needed, some (tag, account), timed⟩)
    (unfinished : account.complete = false) :
    Moves amount registry (registry.complete tag now) ⟨needed, some (tag, account), timed⟩
      ⟨needed, some (tag, account.close), timed + 1⟩ := by
  obtain ⟨entry, held, matched⟩ := owned tag account rfl
  rw [complete_open held (matched.complete.trans unfinished)]
  exact moves_change 1 issued held rfl (fun _ => rfl) (matches_close now account entry matched)
    (in_flight_replace registry tag _) rfl (Latency.count_add _ _)

theorem moves_remove {amount needed timed : Nat} {registry : Registry} {tag : Tag} {account : Account}
    (issued : Issued amount registry) (owned : Owns registry ⟨needed, some (tag, account), timed⟩) :
    Moves amount registry (registry.remove tag) ⟨needed, some (tag, account), timed⟩
      ⟨needed, none, timed⟩ := by
  obtain ⟨entry, held, _⟩ := owned tag account rfl
  refine ⟨⟨amount, issued_kept issued rfl (open_before_remove registry tag), rfl⟩, ?_, ?_, ?_, ?_, rfl, rfl⟩
  · exact fun _ _ scan => nomatch scan
  · intro other differs _
    have apart : other ≠ tag := by
      intro same
      exact differs (by simp [Share.tag?, same])
    rw [entry_remove, if_neg apart]
  · exact fun _ named => nomatch named
  · exact in_flight_remove held

theorem sum_eq_zero {ω : Type} (measure : ω → Nat) (list : List ω)
    (zero : ∀ item ∈ list, measure item = 0) : (list.map measure).sum = 0 := by
  refine List.sum_eq_zero fun value member => ?_
  obtain ⟨item, present, rfl⟩ := List.mem_map.mp member
  exact zero item present

theorem shared_start (registry : Registry) (shares : List Share) (amount : Nat)
    (issued : Issued amount registry) (room : amount + (shares.map Share.needed).sum < UInt64.size)
    (idle : ∀ share ∈ shares, share.scan = none ∧ share.timed = 0) :
    Shared registry registry shares := by
  refine ⟨⟨amount, issued, room⟩, ?_, ?_, ?_, rfl, ?_⟩
  · intro share member tag account scan
    simp [(idle share member).1] at scan
  · intro place other share neighbour ours _ _ tag named
    have none := (idle share (List.mem_of_getElem? ours)).1
    simp [Share.tag?, none] at named
  · rw [sum_eq_zero Share.opened shares fun share member => by simp [Share.opened, (idle share member).1]]
    rfl
  · rw [sum_eq_zero Share.timed shares fun share member => (idle share member).2]
    rfl

theorem keeps_moves {α : Type} {before : Registry} {f : Registry → α × Registry} {old : Share} {post : Share → α → Prop}
    (moves : ∀ registry, Owns registry old → ∃ new,
      (∀ amount, Issued amount registry → amount + old.needed < UInt64.size →
        Moves amount registry (f registry).2 old new) ∧ post new (f registry).1) :
    Activity.Keeps (Shared before) post (Activity.step f) old := by
  refine Activity.keeps_step fun registry shares place mine shared => ?_
  obtain ⟨new, moved, done⟩ := moves registry (shared.owned old (List.mem_of_getElem? mine))
  exact ⟨new, shared_moves shared mine moved, done⟩

end HeapCensus.Registry
