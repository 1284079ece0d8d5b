import Geocoding.Cache.Entry
import Geocoding.Cache.TableName
import Geocoding.Program

/-!
# Statements and rows

What is asked of the spatial database, statement by statement with its parameters, and the rows that come
back: columns by name, any of which may be null.
-/

namespace Geocoding.Sql

/-- The value of a column or parameter. -/
inductive Value where
  | null
  | text (s : String)
  | int (n : Int)
  | double (x : Double)
  | bool (b : Bool)
  | time (t : Time)
deriving DecidableEq

/-- A value that may be null. -/
def Value.ofOption {α : Type} (f : α → Value) : Option α → Value
  | none => .null
  | some a => f a

/-- The columns of a row. -/
abbrev Row := List (String × Value)

/-- The statements that the library sends. -/
inductive Statement where
  /-- Find an address, written on one line, by the TIGER functions. -/
  | geocode (line : String) (maxResults : Int)
  /-- Find the address nearest to a point. -/
  | reverse (latitude longitude : Double) (includeRanges : Bool)
  /-- Fetch the cache entry of a key, unless it is older than some days; 0 days are no limit. -/
  | fetch (table : Cache.TableName) (key : String) (ttlDays : Nat)
  /-- Write a cache entry over any other of its key. -/
  | upsert (table : Cache.TableName) (entry : Cache.Entry)
deriving DecidableEq

/-- The columns of a cache entry, in the order of the parameters of `upsert`. -/
def columnsOf (e : Cache.Entry) : Row := [
  ("address_hash", .text e.addressHash),
  ("latitude", .ofOption .double e.latitude),
  ("longitude", .ofOption .double e.longitude),
  ("quality", .ofOption .text e.quality),
  ("rating", .ofOption .int e.rating),
  ("matched", .bool e.matched),
  ("county_fips", .ofOption .text e.countyFips),
  ("source", .text e.source),
  ("cached_at", .time e.cachedAt)]

/-- The parameters of a statement. -/
def Statement.parameters : Statement → List Value
  | geocode line maxResults => [.text line, .int maxResults]
  | reverse latitude longitude includeRanges => [.double latitude, .double longitude, .bool includeRanges]
  | fetch _ key ttlDays => [.text key, .int ttlDays]
  | upsert _ entry => (columnsOf entry).map (·.2)

/-- How a connection shows itself in messages for developers. -/
def describe (closed : Bool) : String :=
  "PostgisClient \x7b closed: " ++ (if closed then "true" else "false") ++ " \x7d"

/-- Asking the database. -/
abbrev database : Interface where
  Call := Statement
  Answer := fun _ => List Row

/-- Send a statement. -/
def send (s : Statement) : Program database (Except Error (List Row)) :=
  Program.ask database s

/-- The only row of an answer, if there is one; two rows are one too many. -/
def atMostOne (failure : String) (reply : Except Error (List Row)) : Except Error (Option Row) :=
  match reply with
  | .ok [] => .ok none
  | .ok [row] => .ok (some row)
  | _ => .error (.database failure)

namespace Row

/-- The value of a column. -/
def value (row : Row) (name : String) : Value :=
  (row.lookup name).getD .null

/-- Read a column by its type. -/
def read {α : Type} (type : Value → Option α) (row : Row) (name : String) : Except Error α :=
  match type (value row name) with
  | some a => .ok a
  | none => .error (.database s!"column {name}: ")

end Row

/-- The type of texts. -/
def Value.toText? : Value → Option String
  | .text s => some s
  | _ => none

/-- The type of integers. -/
def Value.toInt? : Value → Option Int
  | .int n => some n
  | _ => none

/-- The type of doubles. -/
def Value.toDouble? : Value → Option Double
  | .double x => some x
  | _ => none

/-- The type of truth values. -/
def Value.toBool? : Value → Option Bool
  | .bool b => some b
  | _ => none

/-- The type of points in time. -/
def Value.toTime? : Value → Option Time
  | .time t => some t
  | _ => none

/-- A type with null. -/
def nullable {α : Type} (type : Value → Option α) : Value → Option (Option α)
  | .null => some none
  | v => (type v).map some

end Geocoding.Sql
