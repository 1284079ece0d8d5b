import Geocoding.Configuration.Validation
import Geocoding.Configuration.DotEnv

/-!
# Loading configurations

Defaults, overridden by the configuration file, overridden by the environment, to which an environment file
may have added variables. Each variable sets one field and is read on its own; the first that cannot be
read is reported.
-/

namespace Geocoding.Configuration

/-- An unsigned integer of so many bits in a variable. -/
def readUnsigned (bits : Nat) (expected name raw : String) : Except Error Nat :=
  match Text.natBelow? (Nat.pow 2 bits) (Text.trim raw) with
  | some n => .ok n
  | none => .error (.config s!"{name} must be an integer {expected}")

/-- A number of 32 bits in a variable. -/
def readCount (name raw : String) : Except Error Nat :=
  readUnsigned 32 ">= 0" name raw

/-- A positive number of 64 bits in a variable. -/
def readPositive (name raw : String) : Except Error Nat := do
  let n ← readUnsigned 64 "> 0" name raw
  if n = 0 then throw (.config s!"{name} must be an integer > 0")
  return n

/-- A rating limit in a variable: a number of 32 bits that is also a signed one. -/
def readRating (name raw : String) : Except Error Int := do
  let n ← readCount name raw
  if 2147483647 < n then throw (.config s!"{name} is out of range")
  return n

/-- A switch in a variable: on, unless it is turned off by one of four words. -/
def readSwitch (raw : String) : Bool :=
  !(["0", "false", "no", "off"].contains (Text.lowerAscii (Text.trim raw)))

/-- A list in a variable: its words between commas, in small letters. -/
def readList (raw : String) : List String :=
  ((raw.toList.splitOn ',').map fun s => Text.lowerAscii (String.ofList (Text.strip s))).filter (· != "")

/-- Override by a variable, if it is set. -/
def override (env : Environment) (name : String)
    (set : Configuration → String → Except Error Configuration) (c : Configuration) :
    Except Error Configuration :=
  match env.lookup name with
  | some raw => set c raw
  | none => .ok c

/-- The variables that override fields. -/
def variableNames : List String := [
  "DATABASE_URL", "GOOGLE_GEOCODING_API_KEY", "GEOCODE_CACHE_ENABLED", "GEOCODE_CACHE_TTL_DAYS",
  "GEOCODE_CACHE_TABLE", "GEOCODE_MAX_RATING", "GEOCODE_BATCH_CONCURRENCY", "GEOCODE_CENSUS_RPS",
  "GEOCODE_GOOGLE_RPS", "GEOCODE_PROVIDERS"]

/-- Override all that variables are set for. -/
def applyEnvironment (env : Environment) (c : Configuration) : Except Error Configuration :=
  .ok c
    >>= override env "DATABASE_URL" (fun c raw => .ok { c with databaseUrl := Text.trim raw })
    >>= override env "GOOGLE_GEOCODING_API_KEY" (fun c raw =>
      .ok { c with providers := { c.providers with googleApiKey := Text.trim raw } })
    >>= override env "GEOCODE_CACHE_ENABLED" (fun c raw =>
      .ok { c with cache := { c.cache with enabled := readSwitch raw } })
    >>= override env "GEOCODE_CACHE_TTL_DAYS" (fun c raw => do
      return { c with cache := { c.cache with ttlDays := ← readCount "GEOCODE_CACHE_TTL_DAYS" raw } })
    >>= override env "GEOCODE_CACHE_TABLE" (fun c raw =>
      .ok { c with cache := { c.cache with table := Text.trim raw } })
    >>= override env "GEOCODE_MAX_RATING" (fun c raw => do
      return { c with providers := { c.providers with maxRating := ← readRating "GEOCODE_MAX_RATING" raw } })
    >>= override env "GEOCODE_BATCH_CONCURRENCY" (fun c raw => do
      let n ← readPositive "GEOCODE_BATCH_CONCURRENCY" raw
      return { c with batch := { c.batch with concurrency := n } })
    >>= override env "GEOCODE_CENSUS_RPS" (fun c raw => do
      let n ← readCount "GEOCODE_CENSUS_RPS" raw
      return { c with rateLimits := { c.rateLimits with censusPerSec := n } })
    >>= override env "GEOCODE_GOOGLE_RPS" (fun c raw => do
      let n ← readCount "GEOCODE_GOOGLE_RPS" raw
      return { c with rateLimits := { c.rateLimits with googlePerSec := n } })
    >>= override env "GEOCODE_PROVIDERS" (fun c raw =>
      .ok { c with providers := { c.providers with order := readList raw } })

/-- What a configuration is loaded from: the variables that are set, and the contents of the two files,
where there are any. -/
structure Sources where
  environment : Environment := []
  environmentFile : Option Bytes := none
  file : Option Bytes := none

/-- The environment with the variables of the environment file; `none` if one of them cannot be set. -/
def Sources.variables (s : Sources) : Option Environment :=
  match s.environmentFile with
  | some file => DotEnv.load s.environment file
  | none => some s.environment

/-- The configuration before overrides: that of the file, or the defaults. -/
def Sources.base (s : Sources) : Except Error Configuration :=
  match s.file with
  | some file => parseFile file
  | none => .ok {}

/-- The configuration by its file and the variables of an environment, if it is valid. -/
def loadWith (env : Environment) (s : Sources) : Except Error Configuration := do
  let c ← applyEnvironment env (← s.base)
  c.validate
  return c

/-- Load a configuration; `none` if a variable of the environment file cannot be set. -/
def load (s : Sources) : Option (Except Error Configuration) :=
  s.variables.map fun env => loadWith env s

end Geocoding.Configuration
