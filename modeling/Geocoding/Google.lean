import Geocoding.Http.Basic
import Geocoding.Json.Reader
import Geocoding.Json.Decode
import Geocoding.Address.Basic
import Geocoding.Resolution
import Geocoding.Provider

/-!
# The Google provider

Resolving one address by the Google geocoder, which wants a key that is paid for: without one it counts as
not configured and is never asked. The first candidate of a response is taken.
-/

namespace Geocoding.Google

/-- Access to the Google geocoder. -/
structure Client where
  url : String
  key : String

/-- There is a key to show. -/
def Client.hasKey (client : Client) : Bool :=
  !Text.isBlankText client.key

/-- A candidate of a response. -/
structure Candidate where
  formattedAddress : String
  latitude : Double
  longitude : Double
  locationType : String

/-- A response. -/
structure Report where
  status : String
  candidates : List Candidate
  errorMessage : Option String

/-- What a lookup has found. -/
structure Found where
  latitude : Double
  longitude : Double
  formattedAddress : String
  quality : Quality
deriving DecidableEq

/-- Read a point: latitude and longitude. -/
def pointOfJson? (j : Json) : Option (Double × Double) := do
  match ← j.fields [["lat"], ["lng"]] with
  | [lat, lng] => some (← Json.required Json.toDouble? lat, ← Json.required Json.toDouble? lng)
  | _ => none

/-- Read a location and the kind of it. -/
def geometryOfJson? (j : Json) : Option ((Double × Double) × String) := do
  match ← j.fields [["location"], ["location_type"]] with
  | [location, kind] =>
    some (← Json.required pointOfJson? location, ← Json.orDefault Json.toText? "" kind)
  | _ => none

/-- Read a candidate. -/
def Candidate.ofJson? (j : Json) : Option Candidate := do
  match ← j.fields [["formatted_address"], ["geometry"]] with
  | [address, geometry] =>
    let formattedAddress ← Json.orDefault Json.toText? "" address
    let ((latitude, longitude), locationType) ← Json.required geometryOfJson? geometry
    some { formattedAddress, latitude, longitude, locationType }
  | _ => none

/-- Read a response. -/
def Report.ofJson? (j : Json) : Option Report := do
  match ← j.fields [["status"], ["results"], ["error_message"]] with
  | [status, results, message] =>
    some {
      status := ← Json.required Json.toText? status
      candidates := ← Json.orDefault (Json.toList? Candidate.ofJson?) [] results
      errorMessage := ← Json.orDefault (Json.toOption? Json.toText?) none message }
  | _ => none

/-- What a candidate says. -/
def Candidate.toFound (c : Candidate) : Found where
  latitude := c.latitude
  longitude := c.longitude
  formattedAddress := c.formattedAddress
  quality := .ofLocationType c.locationType

/-- What a response says: its first candidate, nothing, or a failure by its status. -/
def Report.outcome (r : Report) : Except Error (Option Found) :=
  if r.status = "OK" then .ok (r.candidates.head?.map Candidate.toFound)
  else if r.status = "ZERO_RESULTS" then .ok none
  else
    let message := r.errorMessage.getD ""
    .error (.google s!"status {r.status}: {message}")

/-- The request of a lookup. -/
def Client.lookupRequest (client : Client) (address : String) : Http.Request :=
  .get client.url [("address", address), ("key", client.key)]

/-- What a response to a lookup says. -/
def lookupOutcome (reply : Except Error Http.Response) : Except Error (Option Found) :=
  match reply with
  | .error _ => .error (.google "HTTP error: ")
  | .ok response =>
    if response.status ≠ 200 then
      .error (.google s!"Google returned {response.status}: {response.excerpt}")
    else match (if response.complete then (Json.parse? response.body).bind Report.ofJson? else none) with
      | some report => report.outcome
      | none => .error (.google "JSON parse error: ")

/-- Look up one address. -/
def Client.lookup (client : Client) (address : String) :
    Program Http.web (Except Error (Option Found)) := do
  if !client.hasKey then return .error (.notConfigured "google: API key not set")
  match ← Http.permitted with
  | .error e => return .error e
  | .ok () => return lookupOutcome (← Http.send (client.lookupRequest address))

/-- The source of all its results. -/
def source : String := ProviderKind.google.name

/-- The result of a lookup. -/
def Found.toResolution (f : Found) : Resolution where
  latitude := f.latitude
  longitude := f.longitude
  source := source
  quality := some f.quality
  matched := true
  rating := 0
  countyFips := ""

/-- Resolve one address; a blank one is answered without asking. -/
def Client.geocode (client : Client) (a : Address) : Program Http.web (Except Error Resolution) := do
  let line := a.oneLine
  if line = "" then return .ok (.unmatched source)
  match ← client.lookup line with
  | .error e => return .error e
  | .ok none => return .ok (.unmatched source)
  | .ok (some found) => return .ok found.toResolution

end Geocoding.Google
