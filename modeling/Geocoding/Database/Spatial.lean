import Geocoding.Database.Sql

/-!
# Lookups in the spatial database

What the geocoders want from a spatial database, as an interface of its own, and how it is carried out by
SQL statements.
-/

namespace Geocoding.Spatial

/-- A row of a forward lookup. -/
structure Match where
  latitude : Double
  longitude : Double
  rating : Int
  matchedAddress : Option String := none
  countyFips : Option String := none
deriving DecidableEq

/-- A row of a reverse lookup. -/
structure Nearest where
  street : Option String := none
  city : Option String := none
  state : Option String := none
  zip : Option String := none
  countyFips : Option String := none
  rating : Option Int := none
deriving DecidableEq

/-- A lookup. -/
inductive Lookup where
  | forward (line : String) (maxResults : Int)
  | reverse (latitude longitude : Double)
deriving DecidableEq

/-- What a lookup may find. -/
def Lookup.Row : Lookup → Type
  | forward .. => Match
  | reverse .. => Nearest

/-- Looking up. -/
abbrev backend : Interface where
  Call := Lookup
  Answer := fun c => Option c.Row

/-- Find an address, unless the token has fired. -/
def find (line : String) (maxResults : Int) : Program backend (Except Error (Option Match)) :=
  Program.guarded backend (.forward line maxResults)

/-- Find the address nearest to a point, unless the token has fired. -/
def findNearest (latitude longitude : Double) : Program backend (Except Error (Option Nearest)) :=
  Program.guarded backend (.reverse latitude longitude)

/-- Read the columns of a forward lookup. -/
def Match.ofRow (row : Sql.Row) : Except Error Match := do
  return {
    latitude := ← Sql.Row.read Sql.Value.toDouble? row "latitude"
    longitude := ← Sql.Row.read Sql.Value.toDouble? row "longitude"
    rating := ← Sql.Row.read Sql.Value.toInt? row "rating"
    matchedAddress := ← Sql.Row.read (Sql.nullable Sql.Value.toText?) row "matched_address"
    countyFips := ← Sql.Row.read (Sql.nullable Sql.Value.toText?) row "county_fips" }

/-- Read the columns of a reverse lookup. -/
def Nearest.ofRow (row : Sql.Row) : Except Error Nearest := do
  return {
    street := ← Sql.Row.read (Sql.nullable Sql.Value.toText?) row "street"
    city := ← Sql.Row.read (Sql.nullable Sql.Value.toText?) row "city"
    state := ← Sql.Row.read (Sql.nullable Sql.Value.toText?) row "state"
    zip := ← Sql.Row.read (Sql.nullable Sql.Value.toText?) row "zip"
    countyFips := ← Sql.Row.read (Sql.nullable Sql.Value.toText?) row "county_fips"
    rating := ← Sql.Row.read (Sql.nullable Sql.Value.toInt?) row "rating" }

/-- Find an address in the database. -/
def forward (line : String) (maxResults : Int) : Program Sql.database (Except Error (Option Match)) := do
  match Sql.atMostOne "geocode() failed: " (← Sql.send (.geocode line maxResults)) with
  | .error e => return .error e
  | .ok none => return .ok none
  | .ok (some row) => return (Match.ofRow row).map some

/-- Find the address nearest to a point in the database. -/
def reverse (latitude longitude : Double) : Program Sql.database (Except Error (Option Nearest)) := do
  match Sql.atMostOne "reverse_geocode() failed: " (← Sql.send (.reverse latitude longitude true)) with
  | .error e => return .error e
  | .ok none => return .ok none
  | .ok (some row) => return (Nearest.ofRow row).map some

/-- Carry out a lookup by SQL. -/
def bySql : (c : backend.Call) → Program Sql.database (backend.Reply c)
  | .forward line maxResults => forward line maxResults
  | .reverse latitude longitude => reverse latitude longitude

end Geocoding.Spatial
