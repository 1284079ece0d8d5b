import Geocoding.Census.Provider
import Geocoding.Google
import Geocoding.Tiger
import Geocoding.Cache.Memory
import Geocoding.Database.CacheTable
import Geocoding.Services
import Geocoding.RateLimit
import Geocoding.Configuration.Basic
import Geocoding.Engine.Bulk

/-!
# Setting up

From a configuration to an engine and what stands behind its calls. Everything in the configuration that
could be refused is refused here, so that nothing of it fails a call later.
-/

namespace Geocoding

/-- What a provider asks. -/
inductive Backend where
  | tiger (settings : Tiger.Settings)
  | census (client : Census.Client) (bulk : Bool)
  | google (client : Google.Client)

namespace Backend

/-- The provider, as the engine sees it. -/
def toProvider : Backend → Provider
  | tiger _ => { name := Tiger.source }
  | census _ bulk => { name := Census.source, bulkLimit := if bulk then some Census.maxRows else none }
  | google client => { name := Google.source, available := client.hasKey }

/-- Resolve one address. -/
def geocode (a : Address) : Backend → Program services (Except Error Resolution)
  | tiger settings => (settings.geocode a).overSpatial
  | census client _ => (client.geocode a).overWeb
  | google client => (client.geocode a).overWeb

/-- Resolve many addresses by one batch; only the Census geocoder takes any. -/
def submit (rows : List Address) : Backend → Program services (Except Error Answers)
  | census client _ => (client.geocodeBulk rows).overWeb
  | _ => .done (.ok .empty)

end Backend

/-- Where outcomes are kept. -/
inductive CacheStore where
  | none
  | memory (ttlDays : Nat)
  | table (t : Cache.Table)

/-- An engine, and what stands behind its calls. -/
structure Setup where
  backends : List Backend
  store : CacheStore
  concurrency : Nat
  chunkSize : Nat

namespace Setup

/-- The engine. -/
def engine (u : Setup) : Engine :=
  let caching := match u.store with | .none => false | _ => true
  let e := Engine.ofProviders (u.backends.map Backend.toProvider) caching
  (e.withConcurrency u.concurrency).withChunkSize u.chunkSize

/-- The plan for resolving addresses, in bulk or one by one. -/
def planFor (u : Setup) (bulk : Bool) (addresses : List Address) : Engine.Plan (List Resolution) :=
  if bulk then u.engine.bulk addresses else u.engine.batch addresses

/-- The cache in memory at the start. -/
def memory (u : Setup) : Cache.Memory :=
  match u.store with
  | .memory ttlDays => { ttlDays }
  | _ => { ttlDays := 0 }

/-- The state of a run: the cache in memory, and that of the services. -/
structure State (σ : Type) where
  memory : Cache.Memory
  outside : σ

variable {σ : Type}

/-- Run a program that asks services. -/
def State.run {α : Type} (w : World services σ) (p : Program services α) (s : State σ) :
    Option α × State σ :=
  let (outcome, outside) := p.run w s.outside
  (outcome, { s with outside })

/-- The collaborators of the engine, where services do as `w` says and `clock` tells the time. -/
def world (u : Setup) (w : World services σ) (clock : σ → Time) :
    World Engine.collaborators (State σ) :=
  World.immediate (fun s => w.fired s.outside) fun c s => match c with
    | .geocode position a => match u.backends[position]? with
      | some b => s.run w (b.geocode a)
      | none => (none, s)
    | .submit position rows => match u.backends[position]? with
      | some b => s.run w (b.submit rows)
      | none => (none, s)
    | .check key => match u.store with
      | .none => (some (.ok none), s)
      | .memory _ => (some (.ok (s.memory.check key (clock s.outside))), s)
      | .table t => s.run w (t.check key).overDatabase
    | .store key r => match u.store with
      | .none => (some (.ok ()), s)
      | .memory _ => (some (.ok ()), { s with memory := s.memory.store key r (clock s.outside) })
      | .table t => s.run w (t.store key r (clock s.outside)).overDatabase

end Setup

namespace Configuration

/-- The path that the Census geocoder is found under. -/
def censusBase : String := "/geocoder"

/-- The path that the Google geocoder is found under. -/
def googlePath : String := "/maps/api/geocode/json"

/-- The backend of a kind; the one by database is left out if there is none. -/
def backend (c : Configuration) (hasDatabase : Bool) : ProviderKind → Except Error (Option Backend)
  | .tiger =>
    let settings : Tiger.Settings := { maxRating := c.providers.maxRating }
    .ok (if hasDatabase then some (.tiger (settings.withMaxResults c.providers.tigerMaxResults)) else none)
  | .census => do
    let _ ← RateLimiter.ofRate Census.source c.rateLimits.censusPerSec
    let client := Census.Client.ofBase censusBase c.providers.censusBenchmark c.providers.censusVintage
    return some (.census client c.providers.bulkEnabled)
  | .google => do
    let _ ← RateLimiter.ofRate Google.source c.rateLimits.googlePerSec
    return some (.google ⟨googlePath, c.providers.googleApiKey⟩)

/-- The backends of an order. -/
def backends (c : Configuration) (hasDatabase : Bool) : List ProviderKind → Except Error (List Backend)
  | [] => .ok []
  | kind :: kinds => do
    let backend ← c.backend hasDatabase kind
    return backend.toList ++ (← c.backends hasDatabase kinds)

/-- Where outcomes are kept: in the database, if there is one. The name of the table has to be a name in
any case. -/
def cacheStore (c : Configuration) (hasDatabase : Bool) : Except Error CacheStore := do
  if !c.cache.enabled then return .none
  let table ← Cache.TableName.parse c.cache.table
  return if hasDatabase then .table ⟨table, c.cache.ttlDays⟩ else .memory c.cache.ttlDays

/-- Set up an engine. -/
def setup (c : Configuration) (hasDatabase : Bool) : Except Error Setup := do
  let order ← ProviderKind.parseOrder c.providers.order
  if c.batch.concurrency = 0 then throw (.config "batch concurrency must be at least 1")
  return {
    backends := ← c.backends hasDatabase order
    store := ← c.cacheStore hasDatabase
    concurrency := c.batch.concurrency
    chunkSize := c.batch.bulkChunkSize }

/-- Reverse lookups can be made, that is, there is a database. -/
def reverseSetup (hasDatabase : Bool) : Except Error Unit :=
  if hasDatabase then .ok () else .error (.notConfigured "reverse geocoding needs DATABASE_URL")

end Configuration

end Geocoding
