import HeapCensus.Census.ByName
import HeapCensus.Proofs.Query

set_option autoImplicit false

namespace HeapCensus

namespace Resolutions

variable {resolutions : Resolutions} {name : TypeName} {now : Nat} {types : List HeapClass}

theorem find_none_iff : resolutions.find? name now = none ↔
    ∀ entry ∈ resolutions.entries, entry.name = name → resolutions.isCurrent now entry = false := by
  simp [find?]

theorem entry_of_find (remembered : resolutions.find? name now = some types) :
    ∃ entry ∈ resolutions.entries, entry.name = name ∧ resolutions.isCurrent now entry = true ∧
      entry.types = types := by
  obtain ⟨entry, held, same⟩ := Option.map_eq_some_iff.mp remembered
  have wanted := List.find?_some held
  obtain ⟨named, current⟩ := Bool.and_eq_true_iff.mp wanted
  exact ⟨entry, List.mem_of_find?_eq_some held, of_decide_eq_true named, current, same⟩

theorem mem_remember {entry : Resolution} (member : entry ∈ (resolutions.remember name types now).entries) :
    entry ∈ resolutions.entries ∨ (types ≠ [] ∧ entry = ⟨name, types, now⟩) := by
  have older : ∀ {entry}, entry ∈ resolutions.entries.filter (fun other =>
      other.name ≠ name && resolutions.isCurrent now other) → entry ∈ resolutions.entries :=
    fun kept => (List.mem_filter.mp kept).1
  unfold remember at member
  cases types with
  | nil => exact .inl member
  | cons type types =>
      dsimp only [List.isEmpty_cons] at member
      rw [if_neg Bool.false_ne_true] at member
      split at member
      · exact .inl (older member)
      · rcases List.mem_append.mp member with kept | added
        · exact .inl (older kept)
        · exact .inr ⟨List.cons_ne_nil type types, List.mem_singleton.mp added⟩

theorem remember_keeps (resolutions : Resolutions) (name : TypeName) (types : List HeapClass) (now : Nat) :
    (resolutions.remember name types now).lifetime = resolutions.lifetime ∧
      (resolutions.remember name types now).hits = resolutions.hits ∧
      (resolutions.remember name types now).misses = resolutions.misses := by
  unfold remember
  cases types with
  | nil => exact ⟨rfl, rfl, rfl⟩
  | cons type types =>
      dsimp only [List.isEmpty_cons]
      rw [if_neg Bool.false_ne_true]
      split <;> exact ⟨rfl, rfl, rfl⟩

theorem current_remember (entry : Resolution) (later : Nat) :
    (resolutions.remember name types now).isCurrent later entry = resolutions.isCurrent later entry := by
  rw [isCurrent, expiry, (remember_keeps resolutions name types now).1]
  rfl

end Resolutions

variable {ω : Type}

namespace Session

def hit (session : Session ω) : Session ω :=
  session.setResolutions
    { session.census.resolutions with hits := session.census.resolutions.hits + 1 }

def missed (session : Session ω) : Session ω :=
  session.setResolutions
    { session.census.resolutions with misses := session.census.resolutions.misses + 1 }

def remembered? (name : TypeName) (session : Session ω) : Option (List HeapClass) :=
  session.census.resolutions.find? name session.census.clock

def remembering (name : TypeName) (types : List HeapClass) (session : Session ω) : Session ω :=
  session.setResolutions (session.census.resolutions.remember name types session.census.clock)

end Session

namespace Query

variable {walker : Walker ω} {text : String} {name : TypeName} {types : List HeapClass}
  {session found : Session ω}

theorem parse_performed (parsed : TypeName.parse text = .ok name) :
    (ofExcept ((TypeName.parse text).mapError QueryError.ofTypeName) : Query ω TypeName).perform session =
      (.ok name, session) := by
  rw [parsed]
  rfl

theorem consult_hit (cached : session.remembered? name = some types) :
    (consult (·.lookup name ·)).perform session = (.ok (some types), session.hit) := by
  rw [Session.remembered?] at cached
  simp only [consult, perform_step, Resolutions.lookup, cached]
  rfl

theorem consult_missed (uncached : session.remembered? name = none) :
    (consult (·.lookup name ·)).perform session = (.ok none, session.missed) := by
  rw [Session.remembered?] at uncached
  simp only [consult, perform_step, Resolutions.lookup, uncached]
  rfl

theorem resolve_unparsed {cause : TypeNameError} (wrong : TypeName.parse text = .error cause) :
    (resolve walker text).perform session = (Outcome.fail (QueryError.ofTypeName cause), session) := by
  have rejected : (ofExcept ((TypeName.parse text).mapError QueryError.ofTypeName) :
      Query ω TypeName).perform session = (Outcome.fail (QueryError.ofTypeName cause), session) := by
    rw [wrong]
    rfl
  rw [resolve, perform_bind, rejected]
  rfl

theorem resolve_remembered (parsed : TypeName.parse text = .ok name)
    (cached : session.remembered? name = some types) :
    (resolve walker text).perform session = (.ok types, session.hit) := by
  rw [resolve, perform_ok (parse_performed parsed), perform_ok (consult_hit cached)]
  rfl

theorem resolve_found (parsed : TypeName.parse text = .ok name)
    (uncached : session.remembered? name = none)
    (fresh : (resolveFresh walker name).perform session.missed = (.ok types, found)) :
    (resolve walker text).perform session = (.ok types, found.remembering name types) := by
  rw [resolve, perform_ok (parse_performed parsed), perform_ok (consult_missed uncached)]
  exact (perform_ok fresh).trans rfl

theorem resolve_failed {failure : Failure QueryError} (parsed : TypeName.parse text = .ok name)
    (uncached : session.remembered? name = none)
    (fresh : (resolveFresh walker name).perform session.missed = (.error failure, found)) :
    (resolve walker text).perform session = (.error failure, found) := by
  rw [resolve, perform_ok (parse_performed parsed), perform_ok (consult_missed uncached)]
  change (resolveFresh walker name >>= _).perform session.missed = _
  rw [perform_bind, fresh]

inductive Looks (walker : Walker ω) (text : String) (session : Session ω) :
    Outcome QueryError (List HeapClass) → Session ω → Prop
  | unparsed (cause : TypeNameError) :
      TypeName.parse text = .error cause →
        Looks walker text session (Outcome.fail (QueryError.ofTypeName cause)) session
  | remembered (name : TypeName) (types : List HeapClass) :
      TypeName.parse text = .ok name → session.remembered? name = some types →
        Looks walker text session (.ok types) session.hit
  | found (name : TypeName) (types : List HeapClass) (found : Session ω) :
      TypeName.parse text = .ok name → session.remembered? name = none →
        (resolveFresh walker name).perform session.missed = (.ok types, found) →
          Looks walker text session (.ok types) (found.remembering name types)
  | failed (name : TypeName) (failure : Failure QueryError) (found : Session ω) :
      TypeName.parse text = .ok name → session.remembered? name = none →
        (resolveFresh walker name).perform session.missed = (.error failure, found) →
          Looks walker text session (.error failure) found

theorem resolve_looks (walker : Walker ω) (text : String) (session : Session ω) :
    Looks walker text session ((resolve walker text).perform session).1
      ((resolve walker text).perform session).2 := by
  cases parsed : TypeName.parse text with
  | error cause =>
      rw [resolve_unparsed parsed]
      exact .unparsed cause parsed
  | ok name =>
      cases remembered : session.remembered? name with
      | some types =>
          rw [resolve_remembered parsed remembered]
          exact .remembered name types parsed remembered
      | none =>
          cases fresh : (resolveFresh walker name).perform session.missed with
          | mk outcome found =>
              cases outcome with
              | ok types =>
                  rw [resolve_found parsed remembered fresh]
                  exact .found name types found parsed remembered fresh
              | error failure =>
                  rw [resolve_failed parsed remembered fresh]
                  exact .failed name failure found parsed remembered fresh

end Query

end HeapCensus
