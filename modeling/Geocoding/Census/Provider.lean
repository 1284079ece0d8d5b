import Geocoding.Census.Bulk
import Geocoding.Address.Basic
import Geocoding.Answers
import Geocoding.Provider

/-!
# The Census provider

Resolving addresses by the Census geocoder, one at a time or as a batch. Blank addresses are answered
without asking it. The lines of a batch response are matched to the addresses by their tags alone: a line
with a tag that was not submitted is dropped, and of two lines with one tag the last one counts.
-/

namespace Geocoding.Census

/-- The source of all its results. -/
def source : String := ProviderKind.census.name

/-- The tier of an exact and of another find. -/
def tier (exact : Bool) : Quality :=
  if exact then .rooftop else .range

/-- The result of a single lookup. -/
def Found.toResolution (f : Found) : Resolution where
  latitude := f.latitude
  longitude := f.longitude
  source := source
  quality := some (tier f.exact)
  matched := true
  rating := 0
  countyFips := f.countyFips.getD ""

/-- The result of a line of a batch response. -/
def BatchMatch.toResolution (m : BatchMatch) : Resolution :=
  if m.matched then {
    latitude := m.latitude
    longitude := m.longitude
    source
    quality := some (tier m.exact)
    matched := true
    rating := 0
    countyFips := m.countyFips.getD "" }
  else .unmatched source

/-- Resolve one address. -/
def Client.geocode (client : Client) (a : Address) : Program Http.web (Except Error Resolution) := do
  let line := a.oneLine
  if line = "" then return .ok (.unmatched source)
  match ← client.lookup line with
  | .error e => return .error e
  | .ok none => return .ok (.unmatched source)
  | .ok (some found) => return .ok found.toResolution

/-- The row of an address in the file: its parts trimmed. -/
def BatchRow.ofAddress (a : Address) : BatchRow where
  id := a.id
  street := Text.trim a.street
  city := Text.trim a.city
  state := Text.trim a.state
  zip := Text.trim a.zip

/-- The results of the lines whose tags were submitted. -/
def correlate (submitted : List String) (lines : List BatchMatch) : List (String × Resolution) :=
  (lines.filter fun m => submitted.contains m.id).map fun m => (m.id, m.toResolution)

/-- Resolve many addresses by one batch. -/
def Client.geocodeBulk (client : Client) (addresses : List Address) :
    Program Http.web (Except Error Answers) := do
  let (blank, present) := addresses.partition Address.isBlank
  let rows := present.map BatchRow.ofAddress
  match ← client.submit rows with
  | .error e => return .error e
  | .ok lines =>
    let known := Answers.empty.insertAll (blank.map fun a => (a.id, .unmatched source))
    return .ok (known.insertAll (correlate (rows.map (·.id)) lines))

end Geocoding.Census
