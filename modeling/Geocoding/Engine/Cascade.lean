import Geocoding.Engine.Basic

/-!
# Resolving one address

The cache is asked first, then one provider after the other until one has a match; the outcome, found or
not, goes into the cache. No failure of a provider or of the cache ends the run. Only the token does, and
then nothing is kept, so a run that was cut short leaves no false negative behind.
-/

namespace Geocoding.Engine

/-- Look a key up in the cache. A failure counts as a miss, but a cancelled call is reported. -/
def lookup (e : Engine) (key : String) : Task (Except Error (Option Resolution)) :=
  if e.caching then do
    match ← Program.guarded collaborators (.check key) with
    | .ok hit => return .ok hit
    | .error error => return if error.isCancelled then .error .cancelled else .ok none
  else return .ok none

/-- Keep an outcome in the cache; that it cannot be kept is no failure. -/
def keep (e : Engine) (key : String) (r : Resolution) : Task Unit :=
  if e.caching then do
    let _ ← Program.guarded collaborators (.store key r)
    return ()
  else return ()

/-- Ask providers, given with their positions, until one has a match. An unmatched outcome names the last
one that was asked and is configured, or else `last`. -/
def askAll (a : Address) : List (Provider × Nat) → Option String → Task (Except Error Resolution)
  | [], last => do
    -- The last look: a run that was cut short must not pass for one that found nothing.
    if ← Program.fired then return .error .cancelled
    return .ok (.unmatched (last.getD ""))
  | (p, position) :: rest, last => do
    if ← Program.fired then return .error .cancelled
    if !p.available then askAll a rest last
    else match ← Program.guarded collaborators (.geocode position a) with
      | .ok r => if r.matched then return .ok r else askAll a rest (some p.name)
      | .error error => askAll a rest (if error.isNotConfigured then last else some p.name)

/-- The providers from one position up to another, with their positions. There are none in a range that ends behind
the last of them. -/
def span (e : Engine) (first stop : Nat) : List (Provider × Nat) :=
  if stop ≤ e.providers.length then (e.providers.zipIdx.take stop).drop first else []

/-- Ask the providers in a range of positions, without the cache. -/
def cascade (e : Engine) (a : Address) (first stop : Nat) (prior : Option String) :
    Task (Except Error Resolution) :=
  askAll a (e.span first stop) prior

/-- Resolve an address by the cache and the providers from a position on; `prior` names the last provider
that was asked before. -/
def resolve (e : Engine) (a : Address) (first : Nat) (prior : Option String) :
    Task (Except Error Resolution) := do
  if ← Program.fired then return .error .cancelled
  match ← e.lookup a.key with
  | .error error => return .error error
  | .ok (some hit) => return .ok hit
  | .ok none =>
    match ← e.cascade a first e.providers.length prior with
    | .error error => return .error error
    | .ok r =>
      e.keep a.key r
      return .ok r

/-- Resolve an address. The outcome is an error only if the run was cancelled. -/
def geocode (e : Engine) (a : Address) : Task (Except Error Resolution) :=
  e.resolve a 0 none

end Geocoding.Engine
