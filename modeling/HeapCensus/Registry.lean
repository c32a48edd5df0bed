import HeapCensus.Latency
import HeapCensus.Tag
import HeapCensus.Tally

set_option autoImplicit false

namespace HeapCensus

/-- A registered scan. It is complete once a duration is recorded. -/
structure ScanEntry where
  target : HeapClass
  tally : Tally
  -- Clock reading, in nanoseconds, at registration.
  started : Nat
  -- Nanoseconds from registration to completion.
  recorded : Option Nat
  faults : List String

structure ScanReport where
  tag : Tag
  target : HeapClass
  tally : Tally
  elapsed : Option Nat
  faults : List String

inductive RegistryError where
  | unknownTag (tag : Tag)
  | notComplete (tag : Tag)
  deriving DecidableEq, Repr

def RegistryError.message : RegistryError → String
  | .unknownTag tag => "No scan registered under tag " ++ tag.render
  | .notComplete tag => "Scan " ++ tag.render ++ " has not completed"

namespace ScanReport

def fault (report : ScanReport) : Option String := report.faults.head?

def isClean (report : ScanReport) : Bool := report.faults.isEmpty

end ScanReport

namespace ScanEntry

def fresh (target : HeapClass) (now : Nat) : ScanEntry :=
  { target := target, tally := Tally.empty, started := now, recorded := none, faults := [] }

def isComplete (entry : ScanEntry) : Bool := entry.recorded.isSome

def count (entry : ScanEntry) (object : HeapObject) : ScanEntry :=
  { entry with tally := entry.tally.add object.type 1 }

def addFault (entry : ScanEntry) (message : String) : ScanEntry :=
  { entry with faults := entry.faults ++ [message] }

def report (entry : ScanEntry) (tag : Tag) : ScanReport :=
  { tag := tag
    target := entry.target
    tally := entry.tally
    elapsed := entry.recorded
    faults := entry.faults }

end ScanEntry

structure Registry where
  -- Shared with the queries that are no scans.
  tags : TagCounter
  latency : Latency
  strays : Nat
  scans : List (Tag × ScanEntry)
  distinct : (scans.map Prod.fst).Nodup

namespace Registry

def new (latency : Latency) : Registry :=
  { tags := {}, latency := latency, strays := 0, scans := [], distinct := List.nodup_nil }

def entryAt (registry : Registry) (tag : Tag) : Option ScanEntry :=
  (registry.scans.find? fun scan => scan.1 = tag).map (·.2)

theorem tags_replaced (scans : List (Tag × ScanEntry)) (tag : Tag) (entry : ScanEntry) :
    (scans.map fun scan => if scan.1 = tag then (tag, entry) else scan).map Prod.fst =
      scans.map Prod.fst := by
  rw [List.map_map]
  refine List.map_congr_left fun scan _ => ?_
  by_cases same : scan.1 = tag <;> simp [same]

theorem tags_removed (scans : List (Tag × ScanEntry)) (tag : Tag)
    (distinct : (scans.map Prod.fst).Nodup) :
    ((scans.filter fun scan => scan.1 ≠ tag).map Prod.fst).Nodup :=
  (List.filter_sublist.map Prod.fst).nodup distinct

theorem tags_begun (scans : List (Tag × ScanEntry)) (tag : Tag) (entry : ScanEntry)
    (distinct : (scans.map Prod.fst).Nodup) (absent : ∀ scan ∈ scans, scan.1 ≠ tag) :
    ((scans ++ [(tag, entry)]).map Prod.fst).Nodup := by
  rw [List.map_append, List.nodup_append]
  refine ⟨distinct, by simp, ?_⟩
  intro first held second added equal
  obtain ⟨scan, member, rfl⟩ := List.mem_map.mp held
  have second_eq : second = tag := by simpa using added
  exact absent scan member (equal.trans second_eq)

def replace (registry : Registry) (tag : Tag) (entry : ScanEntry) : Registry :=
  { registry with
    scans := registry.scans.map fun scan => if scan.1 = tag then (tag, entry) else scan
    distinct := (tags_replaced registry.scans tag entry).symm ▸ registry.distinct }

def remove (registry : Registry) (tag : Tag) : Registry :=
  { registry with
    scans := registry.scans.filter fun scan => scan.1 ≠ tag
    distinct := tags_removed registry.scans tag registry.distinct }

def stray (registry : Registry) : Registry := { registry with strays := registry.strays + 1 }

def inFlight (registry : Registry) : Nat := registry.scans.length

def takeTag (registry : Registry) : Tag × Registry :=
  let taken := registry.tags.next
  (taken.1, { registry with tags := taken.2 })

def begin (registry : Registry) (target : HeapClass) (now : Nat) : Tag × Registry :=
  let taken := registry.tags.next
  let cleared := registry.remove taken.1
  (taken.1,
   { cleared with
     tags := taken.2
     scans := cleared.scans ++ [(taken.1, ScanEntry.fresh target now)]
     distinct := tags_begun cleared.scans taken.1 _ cleared.distinct (by simp [cleared, remove]) })

def visit (registry : Registry) (tag : Tag) : Option HeapObject → Registry
  | none => registry
  | some object =>
      match registry.entryAt tag with
      | none => registry.stray
      | some entry =>
          if entry.isComplete then registry.stray
          else registry.replace tag (entry.count object)

/-- The scan has visited everything. Only the first completion counts, and adds a latency. -/
def complete (registry : Registry) (tag : Tag) (now : Nat) : Registry :=
  match registry.entryAt tag with
  | none => registry.stray
  | some entry =>
      if entry.isComplete then registry
      else
        let elapsed := now - entry.started
        { registry.replace tag { entry with recorded := some elapsed } with
          latency := registry.latency.addElapsed elapsed }

def fault (registry : Registry) (tag : Tag) (message : String) : Registry :=
  match registry.entryAt tag with
  | none => registry.stray
  | some entry => registry.replace tag (entry.addFault message)

def finish (registry : Registry) (tag : Tag) : Except RegistryError ScanReport × Registry :=
  match registry.entryAt tag with
  | none => (.error (.unknownTag tag), registry)
  | some entry =>
      if entry.isComplete then (.ok (entry.report tag), registry.remove tag)
      else (.error (.notComplete tag), registry)

/-- Removes a scan in whatever state it is; the reason is its last fault. -/
def abandon (registry : Registry) (tag : Tag) (reason : String) : Option ScanReport × Registry :=
  match registry.entryAt tag with
  | none => (none, registry)
  | some entry => (some ((entry.addFault reason).report tag), registry.remove tag)

end Registry

end HeapCensus
