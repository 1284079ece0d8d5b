import Geocoding.Database.Spatial

/-!
# Reverse lookup

From coordinates to the nearest address. There is one backend and nothing to fall back on, so every failure
is reported; coordinates that are no point on earth are refused before the backend is asked.
-/

namespace Geocoding.Reverse

/-- The coordinates are those of a point on earth. -/
def isOnEarth (latitude longitude : Double) : Bool :=
  latitude.between (Double.ofNat 90).neg (Double.ofNat 90) &&
    longitude.between (Double.ofNat 180).neg (Double.ofNat 180)

/-- A row with nothing in the place of nulls. -/
def placeOfRow (row : Spatial.Nearest) : Place where
  street := row.street.getD ""
  city := row.city.getD ""
  state := row.state.getD ""
  zip := row.zip.getD ""
  countyFips := row.countyFips.getD ""
  rating := row.rating.getD 0

/-- Find the address nearest to a point. -/
def lookup (latitude longitude : Double) : Program Spatial.backend (Except Error Place) := do
  if !isOnEarth latitude longitude then return .error (.invalidCoordinates latitude longitude)
  match ← Spatial.findNearest latitude longitude with
  | .error e => return .error e
  | .ok none => return .error (.reverseNotFound latitude longitude)
  | .ok (some row) => return .ok (placeOfRow row)

end Geocoding.Reverse
