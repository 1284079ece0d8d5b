import Geocoding.Quality
import Geocoding.Json.Reader
import Geocoding.Json.Writer

/-!
# Resolutions

The outcome of resolving an address. Not having found it is an outcome like any other: it names the
provider that was asked last.
-/

namespace Geocoding

/-- Where an address is, or that it was not found. -/
structure Resolution where
  latitude : Double := Double.zero
  longitude : Double := Double.zero
  source : String := ""
  quality : Option Quality := none
  matched : Bool := false
  rating : Int := 0
  countyFips : String := ""
deriving DecidableEq

/-- The outcome of a reverse lookup. -/
structure Place where
  street : String := ""
  city : String := ""
  state : String := ""
  zip : String := ""
  countyFips : String := ""
  rating : Int := 0
deriving DecidableEq

namespace Resolution

/-- Not found; `source` was asked last. -/
def unmatched (source : String) : Resolution :=
  { source }

/-- The smallest and the largest rating. -/
def ratingBounds : Int × Int := (-2147483648, 2147483647)

/-- Read a resolution from JSON; only the tier and the county may be missing. -/
def ofJson? (j : Json) : Option Resolution := do
  let fields ← j.fields
    [["latitude"], ["longitude"], ["source"], ["quality"], ["matched"], ["rating"], ["county_fips"]]
  match fields with
  | [latitude, longitude, source, quality, matched, rating, countyFips] =>
    some {
      latitude := ← Json.required Json.toDouble? latitude
      longitude := ← Json.required Json.toDouble? longitude
      source := ← Json.required Json.toText? source
      quality := ← Json.orDefault (Json.toOption? Quality.ofJson?) none quality
      matched := ← Json.required Json.toBool? matched
      rating := ← Json.required (Json.toInt? ratingBounds.1 ratingBounds.2) rating
      countyFips := ← Json.orDefault Json.toText? "" countyFips }
  | _ => none

/-- Read a resolution from JSON text. -/
def parse (text : Bytes) : Except Error Resolution :=
  match (Json.parse? text).bind ofJson? with
  | some r => .ok r
  | none => .error .json

/-- The members of a resolution in JSON, in order. -/
def members (r : Resolution) : List (String × String) := [
  ("latitude", r.latitude.jsonText),
  ("longitude", r.longitude.jsonText),
  ("source", Json.quote r.source),
  ("quality", match r.quality with | some q => Json.quote q.name | none => "null"),
  ("matched", if r.matched then "true" else "false"),
  ("rating", toString r.rating),
  ("county_fips", Json.quote r.countyFips)]

/-- The JSON text of a resolution. -/
def toJsonText (r : Resolution) : String :=
  Json.objectText r.members

end Resolution

/-- The JSON text of a place. -/
def Place.toJsonText (p : Place) : String :=
  Json.objectText [
    ("street", Json.quote p.street),
    ("city", Json.quote p.city),
    ("state", Json.quote p.state),
    ("zip_code", Json.quote p.zip),
    ("county_fips", Json.quote p.countyFips),
    ("rating", toString p.rating)]

end Geocoding
