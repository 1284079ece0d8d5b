import Geocoding.Configuration.Basic
import Geocoding.Provider
import Geocoding.Census.Bulk

/-!
# Validating configurations

Everything that is wrong with a configuration, in a fixed order and in one message. Repeated providers and
the spelling of the table name are not looked at here: they show when an engine is built.
-/

namespace Geocoding.Configuration

/-- The name is that of a provider. -/
def isKnownProvider (name : String) : Bool :=
  (ProviderKind.ofName? (Text.lowerAscii (Text.trim name))).isSome

/-- A text if something is wrong. -/
def complaint (wrong : Bool) (text : String) : List String :=
  if wrong then [text] else []

/-- What is wrong with the order of providers. -/
def orderIssues (order : List String) : List String :=
  complaint order.isEmpty "providers.order must name at least one provider" ++
    (order.filter fun name => !isKnownProvider name).map fun name =>
      s!"providers.order has unknown provider '{name}'"

/-- What is wrong with a configuration. -/
def issues (c : Configuration) : List String :=
  orderIssues c.providers.order ++
  complaint (c.providers.maxRating < 0) "providers.max_rating must be >= 0" ++
  complaint (c.providers.tigerMaxResults ≤ 0) "providers.tiger_max_results must be > 0" ++
  complaint (Text.isBlankText c.providers.censusBenchmark) "providers.census_benchmark must not be empty" ++
  complaint (Text.isBlankText c.providers.censusVintage) "providers.census_vintage must not be empty" ++
  complaint (c.rateLimits.censusPerSec == 0) "rate_limits.census_per_sec must be > 0" ++
  complaint (c.rateLimits.googlePerSec == 0) "rate_limits.google_per_sec must be > 0" ++
  complaint (c.batch.concurrency == 0) "batch.concurrency must be > 0" ++
  complaint (c.batch.bulkChunkSize == 0) "batch.bulk_chunk_size must be > 0" ++
  complaint (Census.maxRows < c.batch.bulkChunkSize) s!"batch.bulk_chunk_size must be <= {Census.maxRows}" ++
  complaint (c.cache.enabled && Text.isBlankText c.cache.table)
    "cache.table must be set when caching is enabled"

/-- Nothing is wrong, or all that is. -/
def validate (c : Configuration) : Except Error Unit :=
  if c.issues.isEmpty then .ok ()
  else .error (.config ("Invalid config:\n - " ++ String.intercalate "\n - " c.issues))

end Geocoding.Configuration
