import Geocoding.Error

/-!
# Rate limits

A limiter is a bucket that holds as many permits as may be used in a second and starts out full.
-/

namespace Geocoding

/-- A bucket of permits. -/
structure RateLimiter where
  name : String
  perSecond : Nat
  permits : Nat
  perSecond_pos : 0 < perSecond

namespace RateLimiter

/-- A full bucket; a rate of zero would never let a call through. -/
def ofRate (name : String) (perSecond : Nat) : Except Error RateLimiter :=
  if h : 0 < perSecond then .ok ⟨name, perSecond, perSecond, h⟩
  else .error (.config s!"rate limit for {name} must be > 0 requests/sec")

/-- Take a permit if there is one. -/
def tryAcquire (l : RateLimiter) : Bool × RateLimiter :=
  (0 < l.permits, { l with permits := l.permits - 1 })

/-- Try to take a permit several times, without time passing. -/
def tryAcquires : Nat → RateLimiter → List Bool
  | 0, _ => []
  | n + 1, l => let (taken, l) := l.tryAcquire; taken :: tryAcquires n l

end RateLimiter

end Geocoding
