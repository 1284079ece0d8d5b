import Geocoding.Census.Oneline
import Geocoding.Csv.Reader
import Geocoding.Csv.Writer
import Geocoding.Double.Read

/-!
# Batches of the Census geocoder

Many addresses go into one request as a file of comma-separated rows; the response has a line for each row
that the geocoder has dealt with. Lines that cannot be understood are dropped, one by one.
-/

namespace Geocoding.Census

/-- A row of the file. -/
structure BatchRow where
  id : String := ""
  street : String := ""
  city : String := ""
  state : String := ""
  zip : String := ""
deriving DecidableEq

/-- The greatest number of rows of a file. -/
def maxRows : Nat := 10000

/-- The fields of a row. -/
def BatchRow.fields (r : BatchRow) : List String :=
  [r.id, r.street, r.city, r.state, r.zip]

/-- The file. -/
def batchFile (rows : List BatchRow) : String :=
  Csv.writeText (rows.map BatchRow.fields)

/-- What a line of the response says about a row. -/
structure BatchMatch where
  id : String
  matched : Bool := false
  exact : Bool := false
  matchedAddress : String := ""
  latitude : Double := Double.zero
  longitude : Double := Double.zero
  tigerLineId : String := ""
  side : String := ""
  countyFips : Option String := none
deriving DecidableEq

/-- A point: longitude and latitude around a comma. -/
def point? (s : String) : Option (Double × Double) := do
  let (longitude, latitude) ← Text.splitAtFirst ',' s.toList
  some (← Double.read? (String.ofList (Text.strip longitude)),
    ← Double.read? (String.ofList (Text.strip latitude)))

/-- The county number of state and county parts that are both there. -/
def county? (state county : Option String) : Option String := do
  let state := Text.trim (← state)
  let county := Text.trim (← county)
  if state = "" ∨ county = "" then none else some (state ++ county)

/-- A row that was found: how, where, and on which side of which line. -/
def matchedRow? (id : String) (fields : List String) : Option BatchMatch := do
  let (longitude, latitude) ← point? (← fields[5]?)
  some {
    id
    matched := true
    exact := Text.eqIgnoringCase (Text.trim (← fields[3]?)) "Exact"
    matchedAddress := Text.trim (← fields[4]?)
    latitude, longitude
    tigerLineId := Text.trim (fields[6]?.getD "")
    side := Text.trim (fields[7]?.getD "")
    countyFips := county? fields[8]? fields[9]? }

/-- What a line says, if it can be understood. -/
def BatchMatch.ofLine? (fields : List String) : Option BatchMatch := do
  let id := Text.trim (← fields[0]?)
  if id = "" then none
  let status := Text.trim (← fields[2]?)
  if Text.eqIgnoringCase status "No_Match" || Text.eqIgnoringCase status "Tie" then some { id }
  else if Text.eqIgnoringCase status "Match" then matchedRow? id fields
  else none

/-- What a response says, line by line. -/
def parseResponse (body : String) : List BatchMatch :=
  (Csv.readText body).filterMap BatchMatch.ofLine?

/-- The request of a batch. -/
def Client.batchRequest (client : Client) (rows : List BatchRow) : Http.Request :=
  .post (client.base ++ "/geographies/addressbatch") [
    { name := "benchmark", value := client.benchmark },
    { name := "vintage", value := client.vintage },
    { name := "addressFile", fileName := some "addresses.csv", mediaType := some "text/csv",
      value := batchFile rows }]

/-- What a response to a batch says. -/
def batchOutcome (reply : Except Error Http.Response) : Except Error (List BatchMatch) :=
  match reply with
  | .error _ => .error (.census "batch HTTP error: ")
  | .ok response =>
    if response.status ≠ 200 then
      .error (.census s!"Census batch returned {response.status}: {response.excerpt}")
    else match response.text? with
      | some body => .ok (parseResponse body)
      | none => .error (.census "batch body read error: ")

/-- The refusal of a batch that has too many rows. -/
def oversized (n : Nat) : Error :=
  .census s!"batch of {n} rows exceeds the {maxRows} row limit"

/-- Submit a batch. No rows need no request, and too many rows are refused before one. -/
def Client.submit (client : Client) (rows : List BatchRow) :
    Program Http.web (Except Error (List BatchMatch)) := do
  if rows.isEmpty then return .ok []
  if maxRows < rows.length then return .error (oversized rows.length)
  match ← Http.permitted with
  | .error e => return .error e
  | .ok () => return batchOutcome (← Http.send (client.batchRequest rows))

end Geocoding.Census
