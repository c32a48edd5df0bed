import HeapCensus.Double
import HeapCensus.Outcome
import HeapCensus.TypeName

set_option autoImplicit false

namespace HeapCensus

structure Resolution where
  name : TypeName
  types : List HeapClass
  -- The clock reading at which it was remembered.
  since : Nat

structure Resolutions where
  -- The lifetime of a resolution in seconds.
  lifetime : Nat
  entries : List Resolution
  hits : Nat
  misses : Nat

structure ResolutionStats where
  hits : Nat
  misses : Nat
  hitRate : Float
  entryCount : Nat
  lifetime : Nat

namespace Resolutions

def lifetimeLimit : Nat := 1000 * 365 * 24 * 60 * 60

def entryLimit : Nat := 4096

def new (lifetime : Nat) : Resolutions :=
  { lifetime := lifetime, entries := [], hits := 0, misses := 0 }

def create (lifetime : Nat) : Except Panic Resolutions :=
  if lifetimeLimit < lifetime then .error (.text "time_to_live is longer than 1000 years")
  else .ok (new lifetime)

def expiry (resolutions : Resolutions) (entry : Resolution) : Nat :=
  entry.since + resolutions.lifetime * 1000000000

def isCurrent (resolutions : Resolutions) (now : Nat) (entry : Resolution) : Bool :=
  now < resolutions.expiry entry

def find? (resolutions : Resolutions) (name : TypeName) (now : Nat) : Option (List HeapClass) :=
  (resolutions.entries.find? fun entry => entry.name = name && resolutions.isCurrent now entry).map
    Resolution.types

def lookup (resolutions : Resolutions) (name : TypeName) (now : Nat) :
    Option (List HeapClass) × Resolutions :=
  match resolutions.find? name now with
  | some types => (some types, { resolutions with hits := resolutions.hits + 1 })
  | none => (none, { resolutions with misses := resolutions.misses + 1 })

/-- Remembers what a name denotes in the place of what it denoted before. A name for which there is no room
is not remembered. -/
def remember (resolutions : Resolutions) (name : TypeName) (types : List HeapClass) (now : Nat) :
    Resolutions :=
  let others := resolutions.entries.filter fun entry =>
    entry.name ≠ name && resolutions.isCurrent now entry
  if types.isEmpty then resolutions
  else if entryLimit ≤ others.length then { resolutions with entries := others }
  else { resolutions with entries := others ++ [⟨name, types, now⟩] }

def forgetAll (resolutions : Resolutions) : Resolutions := { resolutions with entries := [] }

def stats (resolutions : Resolutions) : ResolutionStats :=
  let total := resolutions.hits + resolutions.misses
  { hits := resolutions.hits
    misses := resolutions.misses
    hitRate := if total = 0 then 0 else Double.ratio resolutions.hits total
    entryCount := resolutions.entries.length
    lifetime := resolutions.lifetime }

end Resolutions

end HeapCensus
