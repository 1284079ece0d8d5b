import Geocoding.Database.Spatial
import Geocoding.Address.Basic
import Geocoding.Provider

/-!
# The TIGER provider

Resolving one address by the spatial database. A row whose rating exceeds the limit counts as not found,
but its rating is reported.
-/

namespace Geocoding.Tiger

/-- How the database is asked, and which ratings are good enough. -/
structure Settings where
  maxRating : Int
  maxResults : Int := 1

/-- Ask for that many rows, at least one. -/
def Settings.withMaxResults (s : Settings) (n : Int) : Settings :=
  { s with maxResults := max n 1 }

/-- The source of all its results. -/
def source : String := ProviderKind.tiger.name

/-- The result of a row. -/
def Settings.toResolution (s : Settings) (row : Spatial.Match) : Resolution :=
  if s.maxRating < row.rating then { Resolution.unmatched source with rating := row.rating }
  else {
    latitude := row.latitude
    longitude := row.longitude
    source
    quality := some (.ofRating row.rating)
    matched := true
    rating := row.rating
    countyFips := row.countyFips.getD "" }

/-- Resolve one address; a blank one is answered without asking. -/
def Settings.geocode (s : Settings) (a : Address) : Program Spatial.backend (Except Error Resolution) := do
  let line := a.oneLine
  if line = "" then return .ok (.unmatched source)
  match ← Spatial.find line s.maxResults with
  | .error e => return .error e
  | .ok none => return .ok (.unmatched source)
  | .ok (some row) => return .ok (s.toResolution row)

end Geocoding.Tiger
