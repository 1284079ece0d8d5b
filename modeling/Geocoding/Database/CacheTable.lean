import Geocoding.Database.Sql

/-!
# Cache in a database table

Entries in a table with the key as primary key, so that they outlive the process and are shared. The
database itself leaves out entries that are too old.
-/

namespace Geocoding.Cache

/-- A cache table, and how many days its entries count; 0 days are no limit. -/
structure Table where
  name : TableName
  ttlDays : Nat

namespace Table

/-- The greatest number of days that a statement can be given. -/
def maxDays : Nat := 2147483647

/-- Read the columns of an entry. -/
def entryOfRow (row : Sql.Row) : Except Error Entry := do
  let cachedAt ← Sql.Row.read Sql.Value.toTime? row "cached_at"
  return {
    addressHash := ← Sql.Row.read Sql.Value.toText? row "address_hash"
    latitude := ← Sql.Row.read (Sql.nullable Sql.Value.toDouble?) row "latitude"
    longitude := ← Sql.Row.read (Sql.nullable Sql.Value.toDouble?) row "longitude"
    quality := ← Sql.Row.read (Sql.nullable Sql.Value.toText?) row "quality"
    rating := ← Sql.Row.read (Sql.nullable Sql.Value.toInt?) row "rating"
    matched := ← Sql.Row.read Sql.Value.toBool? row "matched"
    countyFips := ← Sql.Row.read (Sql.nullable Sql.Value.toText?) row "county_fips"
    source := (← Sql.Row.read (Sql.nullable Sql.Value.toText?) row "source").getD ""
    cachedAt }

/-- The entry of a key, unless it is too old. -/
def fetch (t : Table) (key : String) : Program Sql.database (Except Error (Option Entry)) := do
  let reply ← Sql.send (.fetch t.name key (min t.ttlDays maxDays))
  match Sql.atMostOne s!"cache lookup on {t.name.text} failed: " reply with
  | .error e => return .error e
  | .ok none => return .ok none
  | .ok (some row) => return (entryOfRow row).map some

/-- Write an entry. -/
def upsert (t : Table) (e : Entry) : Program Sql.database (Except Error Unit) := do
  match ← Sql.send (.upsert t.name e) with
  | .error _ => return .error (.database s!"cache upsert on {t.name.text} failed: ")
  | .ok _ => return .ok ()

/-- The resolution kept under a key. -/
def check (t : Table) (key : String) : Program Sql.database (Except Error (Option Resolution)) := do
  match ← t.fetch key with
  | .error e => return .error e
  | .ok entry => return .ok (entry.map Entry.toResolution)

/-- Keep a resolution under a key. -/
def store (t : Table) (key : String) (r : Resolution) (now : Time) :
    Program Sql.database (Except Error Unit) :=
  t.upsert (.ofResolution key r now)

end Table

end Geocoding.Cache
