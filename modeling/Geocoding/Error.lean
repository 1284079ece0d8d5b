import Geocoding.Double.Shortest

/-!
# Errors

Why a call failed. Most causes carry the text of the collaborator that failed; `Error.message` is the one
place where the wording of the whole library is fixed.
-/

namespace Geocoding

/-- A cause of failure. -/
inductive Error where
  | http (text : String)
  | census (text : String)
  | google (text : String)
  | database (text : String)
  | cache (text : String)
  | notConfigured (text : String)
  | config (text : String)
  | cancelled
  | reverseNotFound (latitude longitude : Double)
  | invalidCoordinates (latitude longitude : Double)
  | parse (text : String)
  | json
  | io (text : String)
  | other (text : String)
deriving DecidableEq

namespace Error

/-- A pair of coordinates in a message. -/
def pairText (latitude longitude : Double) : String :=
  "(" ++ latitude.plainText ++ ", " ++ longitude.plainText ++ ")"

/-- The text shown to the user. -/
def message : Error → String
  | http text => "HTTP request failed: " ++ text
  | census text => "Census geocoder error: " ++ text
  | google text => "Google geocoding API error: " ++ text
  | database text => "Database error: " ++ text
  | cache text => "Cache error: " ++ text
  | notConfigured text => "Provider not configured: " ++ text
  | config text => "Config error: " ++ text
  | cancelled => "Operation cancelled"
  | reverseNotFound latitude longitude => "No address found near " ++ pairText latitude longitude
  | invalidCoordinates latitude longitude => "Invalid coordinates " ++ pairText latitude longitude
  | parse text => "Parse error: " ++ text
  | json => "JSON parse error: "
  | io text => "IO error: " ++ text
  | other text => text

/-- The provider lacks what it needs to be asked at all. -/
def isNotConfigured : Error → Bool
  | notConfigured _ => true
  | _ => false

/-- The call was given up because the token had fired. -/
def isCancelled : Error → Bool
  | cancelled => true
  | _ => false

end Error

end Geocoding
