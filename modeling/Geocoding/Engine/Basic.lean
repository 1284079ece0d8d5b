import Geocoding.Address.Key
import Geocoding.Answers
import Geocoding.Program

/-!
# The engine and its collaborators

The engine resolves addresses by asking its providers in order of priority, behind a cache. It knows of a
provider only its name, whether it can be asked at all, and how many rows it takes in one bulk submission,
if it takes any; everything else is up to the collaborators of a run.
-/

namespace Geocoding

/-- What the engine knows of a provider. -/
structure Provider where
  name : String
  available : Bool := true
  bulkLimit : Option Nat := none
deriving DecidableEq, Repr

/-- The engine: providers in order of priority, whether there is a cache, how many addresses are resolved
at a time, and how many rows go into one bulk submission. -/
structure Engine where
  providers : List Provider
  caching : Bool := false
  concurrency : Nat := 10
  chunkSize : Nat := 10000
  concurrency_pos : 0 < concurrency := by decide
  chunkSize_pos : 0 < chunkSize := by decide

namespace Engine

/-- An engine with the usual limits. -/
def ofProviders (providers : List Provider) (caching : Bool) : Engine :=
  { providers, caching }

/-- The engine with that many addresses resolved at a time, at least one. -/
def withConcurrency (e : Engine) (n : Nat) : Engine :=
  { e with concurrency := max n 1, concurrency_pos := by omega }

/-- The engine with that many rows in one submission, at least one. -/
def withChunkSize (e : Engine) (n : Nat) : Engine :=
  { e with chunkSize := max n 1, chunkSize_pos := by omega }

/-- The names of the providers. -/
def names (e : Engine) : List String :=
  e.providers.map Provider.name

/-- The calls of a run; a provider is called by its position in the order. -/
inductive Call where
  /-- Resolve one address. -/
  | geocode (position : Nat) (address : Address)
  /-- Resolve many addresses, told apart by their tags. -/
  | submit (position : Nat) (rows : List Address)
  /-- Look a key up in the cache. -/
  | check (key : String)
  /-- Keep a resolution in the cache. -/
  | store (key : String) (result : Resolution)
deriving DecidableEq

/-- What each call answers. -/
abbrev Call.Answer : Call → Type
  | geocode .. => Resolution
  | submit .. => Answers
  | check .. => Option Resolution
  | store .. => Unit

/-- The collaborators of a run. -/
abbrev collaborators : Interface where
  Call := Call
  Answer := Call.Answer

/-- A part of a run that resolves one address at most. -/
abbrev Task (α : Type) : Type := Program collaborators α

end Engine

end Geocoding
