import Geocoding.Http.Basic
import Geocoding.Json.Reader
import Geocoding.Json.Decode

/-!
# Single lookups of the Census geocoder

One address, written on one line, goes into the query of a request; the response lists candidates. The
first candidate is taken, and it counts as exact if it is the only one.
-/

namespace Geocoding.Census

/-- Access to the Census geocoder: where it is, and which data it is to look into. -/
structure Client where
  base : String
  benchmark : String
  vintage : String

/-- A client whose base has no slashes at its end. -/
def Client.ofBase (base benchmark vintage : String) : Client :=
  { base := String.ofList (Text.dropEnd (· == '/') base.toList), benchmark, vintage }

/-- A candidate of a response. -/
structure Candidate where
  matchedAddress : String
  longitude : Double
  latitude : Double
  counties : List String

/-- What a single lookup has found. -/
structure Found where
  latitude : Double
  longitude : Double
  matchedAddress : String
  exact : Bool
  countyFips : Option String
deriving DecidableEq

/-- Read the point of a candidate: `x`, the longitude, and `y`, the latitude. -/
def pointOfJson? (j : Json) : Option (Double × Double) := do
  match ← j.fields [["x"], ["y"]] with
  | [x, y] => some (← Json.required Json.toDouble? x, ← Json.required Json.toDouble? y)
  | _ => none

/-- Read the number of a county. -/
def countyOfJson? (j : Json) : Option String := do
  match ← j.fields [["GEOID"]] with
  | [geoid] => Json.orDefault Json.toText? "" geoid
  | _ => none

/-- Read the numbers of the counties of a candidate. -/
def countiesOfJson? (j : Json) : Option (List String) := do
  match ← j.fields [["Counties"]] with
  | [counties] => Json.orDefault (Json.toList? countyOfJson?) [] counties
  | _ => none

/-- Read a candidate. -/
def Candidate.ofJson? (j : Json) : Option Candidate := do
  match ← j.fields [["matchedAddress"], ["coordinates"], ["geographies"]] with
  | [matchedAddress, coordinates, geographies] =>
    let (longitude, latitude) ← Json.required pointOfJson? coordinates
    some {
      matchedAddress := ← Json.orDefault Json.toText? "" matchedAddress
      longitude, latitude
      counties := (← Json.orDefault (Json.toOption? countiesOfJson?) none geographies).getD [] }
  | _ => none

/-- Read the list of candidates. -/
def candidatesOfJson? (j : Json) : Option (List Candidate) := do
  match ← j.fields [["addressMatches"]] with
  | [candidates] => Json.orDefault (Json.toList? Candidate.ofJson?) [] candidates
  | _ => none

/-- Read the body of a response. -/
def candidates? (body : Bytes) : Option (List Candidate) := do
  match ← (← Json.parse? body).fields [["result"]] with
  | [result] => Json.required candidatesOfJson? result
  | _ => none

/-- The best candidate: the first one, exact if it is alone. -/
def best? (candidates : List Candidate) : Option Found :=
  candidates.head?.map fun c => {
    latitude := c.latitude
    longitude := c.longitude
    matchedAddress := c.matchedAddress
    exact := candidates.length == 1
    countyFips := c.counties.head?.filter (· != "") }

/-- The request of a single lookup. -/
def Client.lookupRequest (client : Client) (address : String) : Http.Request :=
  .get (client.base ++ "/geographies/onelineaddress") [
    ("address", address),
    ("benchmark", client.benchmark),
    ("vintage", client.vintage),
    ("layers", "Counties"),
    ("format", "json")]

/-- What a response to a single lookup says. -/
def lookupOutcome (reply : Except Error Http.Response) : Except Error (Option Found) :=
  match reply with
  | .error _ => .error (.census "HTTP error: ")
  | .ok response =>
    if response.status ≠ 200 then
      .error (.census s!"Census returned {response.status}: {response.excerpt}")
    else match (if response.complete then candidates? response.body else none) with
      | some candidates => .ok (best? candidates)
      | none => .error (.census "JSON parse error: ")

/-- Look up one address. -/
def Client.lookup (client : Client) (address : String) :
    Program Http.web (Except Error (Option Found)) := do
  match ← Http.permitted with
  | .error e => return .error e
  | .ok () => return lookupOutcome (← Http.send (client.lookupRequest address))

end Geocoding.Census
