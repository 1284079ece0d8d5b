import Geocoding.Resolution

/-!
# Cache entries

A resolution as it is kept, under the key of its address and with the time it was made at. Positive and
negative outcomes are kept alike; a negative entry has no coordinates.
-/

namespace Geocoding

/-- A point in time: nanoseconds since 1970-01-01, UTC. -/
abbrev Time := Int

/-- Nanoseconds of a second. -/
def Time.second : Time := 1000000000

/-- Nanoseconds of a day. -/
def Time.day : Time := 86400 * Time.second

namespace Cache

/-- An outcome as it is kept. -/
structure Entry where
  addressHash : String
  latitude : Option Double := none
  longitude : Option Double := none
  quality : Option String := none
  rating : Option Int := none
  matched : Bool := false
  countyFips : Option String := none
  source : String := ""
  cachedAt : Time := 0
deriving DecidableEq

namespace Entry

/-- Keep a resolution under a key. -/
def ofResolution (key : String) (r : Resolution) (now : Time) : Entry where
  addressHash := key
  latitude := if r.matched then some r.latitude else none
  longitude := if r.matched then some r.longitude else none
  quality := r.quality.map Quality.name
  rating := some r.rating
  matched := r.matched
  countyFips := if r.countyFips = "" then none else some r.countyFips
  source := r.source
  cachedAt := now

/-- The entry is younger than `ttlDays` days; with 0 days it never grows too old. -/
def isFresh (e : Entry) (ttlDays : Nat) (now : Time) : Bool :=
  ttlDays = 0 || now - e.cachedAt < ttlDays * Time.day

/-- The resolution that an entry stands for. -/
def toResolution (e : Entry) : Resolution where
  latitude := e.latitude.getD Double.zero
  longitude := e.longitude.getD Double.zero
  source := e.source
  quality := e.quality.bind fun s => (Quality.parse s).toOption
  matched := e.matched
  rating := e.rating.getD 0
  countyFips := e.countyFips.getD ""

end Entry

end Cache

end Geocoding
