import Geocoding.Rehearsal.Script
import Geocoding.Rehearsal.Database
import Geocoding.Engine.Timeline
import Geocoding.Engine.Bulk

/-!
# The stage of a rehearsal

The stand-ins together, as collaborators of the engine: actors for the providers, and a cache in memory or
in a scripted database, which may be made to fail. What the actors are asked is logged.
-/

namespace Geocoding.Rehearsal

/-- What an actor has been asked: single calls, submissions, and lookups in the database, each the last one
first; the single calls under way, and the most there were at once; and the number of all submissions. -/
structure Log where
  calls : List String := []
  submissions : List (List (String × String)) := []
  lookups : List (String × Int) := []
  underWay : Nat := 0
  peak : Nat := 0
  submitted : Nat := 0

namespace Log

/-- A single call begins. -/
def enter (l : Log) (street : String) : Log :=
  { l with calls := street :: l.calls, underWay := l.underWay + 1, peak := max l.peak (l.underWay + 1) }

/-- A single call is over. -/
def leave (l : Log) : Log :=
  { l with underWay := l.underWay - 1 }

/-- A submission begins. -/
def submit (l : Log) (rows : List Address) : Log :=
  { l with
    submissions := (rows.map fun a => (a.id, a.street)) :: l.submissions
    submitted := l.submitted + 1 }

/-- A lookup is made. -/
def lookUp (l : Log) (line : String) (maxResults : Int) : Log :=
  { l with lookups := (line, maxResults) :: l.lookups }

/-- Begin a new page; only the number of all submissions is carried over. -/
def turn (l : Log) : Log :=
  { submitted := l.submitted }

end Log

/-- The cache of a rehearsal. The one in memory fails for keys that `checkFault` and `storeFault` give an
error for. -/
inductive StageCache where
  | none
  | memory (m : Cache.Memory) (checkFault storeFault : String → Option Error)
  | table (t : Cache.Table) (d : Database)

/-- The stand-ins and what they have been asked. -/
structure Stage where
  actors : List Actor
  logs : List Log
  cache : StageCache
  fired : Bool := false

namespace Stage

/-- The time at which everything happens; entries of the cache may be older. -/
def time : Time := 0

/-- Set a stage. -/
def ofActors (actors : List Actor) (cache : StageCache) : Stage :=
  { actors, logs := actors.map fun _ => {}, cache }

/-- The stage with another actor in a position. -/
def recast (s : Stage) (position : Nat) (a : Actor) : Stage :=
  { s with actors := s.actors.set position a }

/-- Change the log of an actor. -/
def note (s : Stage) (position : Nat) (f : Log → Log) : Stage :=
  { s with logs := s.logs.modify position f }

/-- Fire the token if an act does. -/
def fireIf (s : Stage) (fires : Bool) : Stage :=
  { s with fired := s.fired || fires }

/-- The token fires. -/
def fire (s : Stage) : Stage :=
  { s with fired := true }

/-- A lookup in the database behind an actor, as the only collaborator; it is logged. -/
def lookups (position : Nat) (rows : Choice (Except Error (Option Spatial.Match))) :
    World Spatial.backend Stage :=
  World.immediate Stage.fired fun c s => match c with
    | .forward line maxResults => (some (rows.of line), s.note position (·.lookUp line maxResults))
    | .reverse .. => (some (.ok none), s)

/-- An actor resolves an address. -/
def resolve (s : Stage) (position : Nat) (a : Address) : Option (Except Error Resolution) × Stage :=
  match s.actors[position]? with
  | some (.scripted script) =>
    let cue := script.cues.of a.street
    (cue.act.reply? script.name, (s.note position Log.leave).fireIf cue.fires)
  | some (.tiger settings rows) => (settings.geocode a).run (lookups position rows) s
  | some (.web b) => (((b.geocode a).run Service.unreachable s.fired).1, s)
  | none => (none, s)

/-- An actor takes a submission. -/
def submit (s : Stage) (position : Nat) (rows : List Address) : Option (Except Error Answers) × Stage :=
  match s.actors[position]? with
  | some (.scripted script) => match script.bulk with
    | some bulk =>
      let n := (s.logs[position]?.map Log.submitted).getD 0 - 1
      let (reply, fires) := bulk.reply n rows
      (reply, s.fireIf fires)
    | none => (some (.ok .empty), s)
  | some (.web b) => (((b.submit rows).run Service.unreachable s.fired).1, s)
  | _ => (some (.ok .empty), s)

/-- Run a program that asks the database of the cache. -/
def query {α : Type} (s : Stage) (t : Cache.Table) (d : Database) (p : Program Sql.database α) :
    Option α × Stage :=
  let (outcome, run) := p.run Database.world { database := d, fired := s.fired }
  (outcome, { s with cache := .table t run.database })

/-- The cache is asked for a key. -/
def check (s : Stage) (key : String) : Option (Except Error (Option Resolution)) × Stage :=
  match s.cache with
  | .none => (some (.ok none), s)
  | .memory m checkFault _ => match checkFault key with
    | some e => (some (.error e), s)
    | none => (some (.ok (m.check key time)), s)
  | .table t d => s.query t d (t.check key)

/-- The cache is given an outcome. -/
def store (s : Stage) (key : String) (r : Resolution) : Option (Except Error Unit) × Stage :=
  match s.cache with
  | .none => (some (.ok ()), s)
  | .memory m checkFault storeFault => match storeFault key with
    | some e => (some (.error e), s)
    | none => (some (.ok ()), { s with cache := .memory (m.store key r time) checkFault storeFault })
  | .table t d => s.query t d (t.store key r time)

/-- A call begins. -/
def start (c : Engine.Call) (s : Stage) : Nat × Stage :=
  match c with
  | .geocode position a => match s.actors[position]? with
    | some (.scripted script) => (script.delay, s.note position (·.enter a.street))
    | _ => (0, s)
  | .submit position rows => match s.actors[position]? with
    | some (.scripted script) =>
      ((script.bulk.map BulkScript.delay).getD 0, s.note position (·.submit rows))
    | _ => (0, s)
  | _ => (0, s)

/-- The collaborators of the engine. -/
def world : World Engine.collaborators Stage where
  fired := Stage.fired
  start := start
  finish := fun c s => match c with
    | .geocode position a => s.resolve position a
    | .submit position rows => s.submit position rows
    | .check key => s.check key
    | .store key r => s.store key r
  abandon := fun c s => match c with
    | .geocode position _ => s.note position Log.leave
    | _ => s

/-- The collaborators on a clock. -/
def clockwork : Engine.Clockwork Stage :=
  { world, fire }

/-- The engine that the actors play for. -/
def engine (s : Stage) : Engine :=
  let caching := match s.cache with | .none => false | _ => true
  Engine.ofProviders (s.actors.map Actor.toProvider) caching

/-- Begin a new page of all logs. -/
def turn (s : Stage) : Stage :=
  let cache := match s.cache with
    | .table t d => .table t { d with sent := [] }
    | cache => cache
  { s with logs := s.logs.map Log.turn, cache, fired := false }

/-- Run a plan of an engine on a new page. The token may have fired before, or it fires when an alarm goes
off. -/
def perform {α : Type} (s : Stage) (e : Engine) (fired : Bool) (alarm : Option Nat)
    (plan : Engine.Plan α) : Option α × Stage :=
  let (outcome, t) := plan.runTimed e clockwork { alarm, state := s.turn.fireIf fired }
  (outcome, t.state)

/-- The raw entry that the cache in memory has under a key. -/
def find? (s : Stage) (key : String) : Option Cache.Entry :=
  match s.cache with
  | .memory m _ _ => m.find? key
  | _ => none

/-- Put a raw entry into the cache in memory. -/
def insertEntry (s : Stage) (e : Cache.Entry) : Stage :=
  match s.cache with
  | .memory m checkFault storeFault => { s with cache := .memory (m.insert e) checkFault storeFault }
  | _ => s

end Stage

end Geocoding.Rehearsal
