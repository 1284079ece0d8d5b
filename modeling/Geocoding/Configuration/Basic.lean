import Geocoding.Json.Reader
import Geocoding.Json.Decode
import Geocoding.Toml.Reader
import Geocoding.Error

/-!
# Configurations

What can be set, with defaults for all of it. A configuration is read from JSON or TOML by one description
of its fields; the two formats differ only in how a document shows its records, lists and scalars.
-/

namespace Geocoding

/-- The cache: whether there is one, how many days entries count (0 is no limit), and its table. -/
structure CacheSettings where
  enabled : Bool := true
  ttlDays : Nat := 0
  table : String := "public.geocode_cache"
deriving DecidableEq

/-- The providers: their order, and what each of them needs to know. -/
structure ProviderSettings where
  order : List String := ["tiger", "census", "google"]
  maxRating : Int := 100
  tigerMaxResults : Int := 1
  googleApiKey : String := ""
  censusBenchmark : String := "Public_AR_Current"
  censusVintage : String := "Current_Current"
  bulkEnabled : Bool := true
deriving DecidableEq

/-- Requests per second to each web service. -/
structure RateSettings where
  censusPerSec : Nat := 50
  googlePerSec : Nat := 50
deriving DecidableEq

/-- Batches: how many addresses are resolved at a time, and how many rows go into a submission. -/
structure BatchSettings where
  concurrency : Nat := 10
  bulkChunkSize : Nat := 10000
deriving DecidableEq

/-- A configuration. Without a database URL there is no database. -/
structure Configuration where
  databaseUrl : String := ""
  cache : CacheSettings := {}
  providers : ProviderSettings := {}
  rateLimits : RateSettings := {}
  batch : BatchSettings := {}
deriving DecidableEq

namespace Configuration

/-- How documents of a format show records, lists and scalars. -/
structure Format (D : Type) where
  fields : List String → D → Option (List (Option D))
  text : D → Option String
  switch : D → Option Bool
  integer : D → Option Int
  items : D → Option (List D)

namespace Format

variable {D α : Type}

/-- A field that may be missing. -/
def optional (read : D → Option α) (default : α) : Option D → Option α
  | none => some default
  | some d => read d

/-- An integer between bounds, both included. -/
def between (f : Format D) (low high : Int) (d : D) : Option Int := do
  let n ← f.integer d
  if low ≤ n ∧ n ≤ high then some n else none

/-- An unsigned integer of so many bits. -/
def unsigned (f : Format D) (bits : Nat) (d : D) : Option Nat :=
  (f.between 0 ((Nat.pow 2 bits : Int) - 1) d).map Int.toNat

/-- A signed integer of 32 bits. -/
def signed (f : Format D) (d : D) : Option Int :=
  f.between (-2147483648) 2147483647 d

/-- A list of texts. -/
def texts (f : Format D) (d : D) : Option (List String) := do
  (← f.items d).mapM f.text

end Format

variable {D : Type}

/-- Read the settings of the cache. -/
def cacheOf (f : Format D) (d : D) : Option CacheSettings := do
  let dflt : CacheSettings := {}
  match ← f.fields ["enabled", "ttl_days", "table"] d with
  | [enabled, ttlDays, table] =>
    some {
      enabled := ← Format.optional f.switch dflt.enabled enabled
      ttlDays := ← Format.optional (f.unsigned 32) dflt.ttlDays ttlDays
      table := ← Format.optional f.text dflt.table table }
  | _ => none

/-- Read the settings of the providers. -/
def providersOf (f : Format D) (d : D) : Option ProviderSettings := do
  let dflt : ProviderSettings := {}
  match ← f.fields ["order", "max_rating", "tiger_max_results", "google_api_key", "census_benchmark",
      "census_vintage", "bulk_enabled"] d with
  | [order, maxRating, tigerMaxResults, googleApiKey, censusBenchmark, censusVintage, bulkEnabled] =>
    some {
      order := ← Format.optional f.texts dflt.order order
      maxRating := ← Format.optional f.signed dflt.maxRating maxRating
      tigerMaxResults := ← Format.optional f.signed dflt.tigerMaxResults tigerMaxResults
      googleApiKey := ← Format.optional f.text dflt.googleApiKey googleApiKey
      censusBenchmark := ← Format.optional f.text dflt.censusBenchmark censusBenchmark
      censusVintage := ← Format.optional f.text dflt.censusVintage censusVintage
      bulkEnabled := ← Format.optional f.switch dflt.bulkEnabled bulkEnabled }
  | _ => none

/-- Read the rates. -/
def ratesOf (f : Format D) (d : D) : Option RateSettings := do
  let dflt : RateSettings := {}
  match ← f.fields ["census_per_sec", "google_per_sec"] d with
  | [censusPerSec, googlePerSec] =>
    some {
      censusPerSec := ← Format.optional (f.unsigned 32) dflt.censusPerSec censusPerSec
      googlePerSec := ← Format.optional (f.unsigned 32) dflt.googlePerSec googlePerSec }
  | _ => none

/-- Read the settings of batches. -/
def batchOf (f : Format D) (d : D) : Option BatchSettings := do
  let dflt : BatchSettings := {}
  match ← f.fields ["concurrency", "bulk_chunk_size"] d with
  | [concurrency, bulkChunkSize] =>
    some {
      concurrency := ← Format.optional (f.unsigned 64) dflt.concurrency concurrency
      bulkChunkSize := ← Format.optional (f.unsigned 64) dflt.bulkChunkSize bulkChunkSize }
  | _ => none

/-- Read a configuration. -/
def ofDocument (f : Format D) (d : D) : Option Configuration := do
  match ← f.fields ["database_url", "cache", "providers", "rate_limits", "batch"] d with
  | [databaseUrl, cache, providers, rateLimits, batch] =>
    some {
      databaseUrl := ← Format.optional f.text "" databaseUrl
      cache := ← Format.optional (cacheOf f) {} cache
      providers := ← Format.optional (providersOf f) {} providers
      rateLimits := ← Format.optional (ratesOf f) {} rateLimits
      batch := ← Format.optional (batchOf f) {} batch }
  | _ => none

/-- JSON documents. -/
def json : Format Json where
  fields := fun names => Json.fields (names.map ([·]))
  text := Json.toText?
  switch := Json.toBool?
  integer := fun
    | .number n => n.toInt?
    | _ => none
  items := Json.toList? some

/-- The fields of a table, or of an array in their order. A point in time has none of them. -/
def tomlFields (names : List String) : Toml → Option (List (Option Toml))
  | .table _ entries => some (names.map fun name => entries.lookup name)
  | .array items => some ((List.range names.length).map fun i => items[i]?)
  | .tables items => some ((List.range names.length).map fun i => items[i]?)
  | .datetime => some (names.map fun _ => none)
  | _ => none

/-- TOML documents. -/
def toml : Format Toml where
  fields := tomlFields
  text := fun
    | .string s => some s
    | _ => none
  switch := fun
    | .bool b => some b
    | _ => none
  integer := fun
    | .integer n => some n
    | _ => none
  items := fun
    | .array items => some items
    | .tables items => some items
    | _ => none

/-- Read a configuration from JSON text. -/
def parseJson (text : Bytes) : Except Error Configuration :=
  match (Json.parse? text).bind (ofDocument json) with
  | some c => .ok c
  | none => .error .json

/-- The name of the configuration file. -/
def fileName : String := "geocoder.toml"

/-- Read a configuration from the bytes of its file. -/
def parseFile (file : Bytes) : Except Error Configuration :=
  match Text.decode? file with
  | none => .error (.config s!"Failed to read {fileName}: ")
  | some text => match (Toml.parse? text).bind (ofDocument toml) with
    | some c => .ok c
    | none => .error (.config s!"Failed to parse {fileName}: ")

end Configuration

end Geocoding
