import Geocoding.Text.Blank
import Geocoding.Json.Reader
import Geocoding.Json.Decode
import Geocoding.Error

/-!
# Addresses

An address to resolve, with a tag that says which row of a batch it is. The tag never takes part in
resolving it.
-/

namespace Geocoding

/-- An address as it is delivered. -/
structure Address where
  id : String := ""
  street : String := ""
  city : String := ""
  state : String := ""
  zip : String := ""
deriving DecidableEq, Repr

namespace Address

/-- The four parts that say where the address is. -/
def parts (a : Address) : List String :=
  [a.street, a.city, a.state, a.zip]

/-- Every part is blank. -/
def isBlank (a : Address) : Bool :=
  a.parts.all Text.isBlankText

/-- The parts that are not blank, trimmed, on one line. -/
def oneLine (a : Address) : String :=
  String.intercalate ", " ((a.parts.map Text.trim).filter (· != ""))

/-- The address under another tag. -/
def withId (a : Address) (id : String) : Address :=
  { a with id := id }

/-- Tag every address that has no tag with its position. -/
def assignIds (addresses : List Address) : List Address :=
  addresses.zipIdx.map fun (a, i) => if Text.isBlankText a.id then a.withId i.repr else a

/-- Read an address from JSON; every field is a text and may be missing. -/
def ofJson? (j : Json) : Option Address := do
  let fields ← j.fields [["id"], ["street"], ["city"], ["state"], ["zip_code", "zip"]]
  match ← fields.mapM (Json.orDefault Json.toText? "") with
  | [id, street, city, state, zip] => some { id, street, city, state, zip }
  | _ => none

/-- Read an address from JSON text. -/
def parse (text : Bytes) : Except Error Address :=
  match (Json.parse? text).bind ofJson? with
  | some a => .ok a
  | none => .error .json

end Address

end Geocoding
