import Geocoding.CommandLine.Arguments
import Geocoding.Address.Table
import Geocoding.Configuration.Overrides
import Geocoding.Setup
import Geocoding.Reverse

/-!
# Running the command line

Arguments, then the configuration, then the database, then the command; the first that fails ends the run.
A run either fails without any output or writes one line for each row of its input, in order.
-/

namespace Geocoding.CommandLine

/-- What the program finds around it. -/
structure Surroundings (σ : Type) where
  arguments : List String
  sources : Configuration.Sources
  /-- The contents of a file, or why there are none. -/
  contentsOf : String → Except String Bytes
  /-- Connect to the database at a URL. -/
  connect : String → Except Error Unit
  services : World services σ
  clock : σ → Time

/-- How a run ends: its exit code, the lines it has written, and what it complains of, if it fails. -/
structure Outcome where
  exitCode : Nat
  lines : List String := []
  complaint : Option String := none
deriving DecidableEq

namespace Outcome

/-- Success with output. -/
def success (lines : List String) : Outcome := { exitCode := 0, lines }

/-- A failure. -/
def failure (complaint : String) : Outcome := { exitCode := 1, complaint := some complaint }

/-- The arguments make no sense. -/
def misused : Outcome := { exitCode := 2 }

/-- The program has broken down. -/
def breakdown : Outcome := { exitCode := 101 }

end Outcome

/-- The line of a row. -/
def line (a : Address) (r : Resolution) : String :=
  Json.objectText (("id", Json.quote a.id) :: r.members)

/-- The lines of all rows. -/
def linesOf (addresses : List Address) (results : List Resolution) : List String :=
  (addresses.zip results).map fun (a, r) => line a r

/-- The addresses of a file, tagged. -/
def readAddresses (contentsOf : String → Except String Bytes) (path : String) :
    Except Error (List Address) :=
  match contentsOf path with
  | .error reason => .error (.parse s!"Failed to open {path}: {reason}")
  | .ok file => match Address.readTable file with
    | .error row => .error (.parse s!"{path} row {row}: ")
    | .ok addresses => .ok (Address.assignIds addresses)

variable {σ : Type}

namespace Surroundings

/-- Resolve addresses by an engine that has been set up. -/
def resolveAll (s : Surroundings σ) (u : Setup) (bulk : Bool) (addresses : List Address) (outside : σ) :
    Option (List Resolution) × σ :=
  let (results, state) :=
    (u.planFor bulk addresses).run u.engine (u.world s.services s.clock) { memory := u.memory, outside }
  (results, state.outside)

/-- Resolve the addresses in a file. -/
def geocode (s : Surroundings σ) (c : Configuration) (hasDatabase : Bool) (path : String) (bulk : Bool)
    (outside : σ) : Outcome × σ :=
  match c.setup hasDatabase with
  | .error e => (.failure e.message, outside)
  | .ok u => match readAddresses s.contentsOf path with
    | .error e => (.failure e.message, outside)
    | .ok addresses => match s.resolveAll u bulk addresses outside with
      | (some results, outside) => (.success (linesOf addresses results), outside)
      | (none, outside) => (.breakdown, outside)

/-- Find the address nearest to a point. -/
def reverse (s : Surroundings σ) (hasDatabase : Bool) (latitude longitude : Double) (outside : σ) :
    Outcome × σ :=
  match Configuration.reverseSetup hasDatabase with
  | .error e => (.failure e.message, outside)
  | .ok () => match (Reverse.lookup latitude longitude).overSpatial.run s.services outside with
    | (some (.ok place), outside) => (.success [place.toJsonText], outside)
    | (some (.error e), outside) => (.failure e.message, outside)
    | (none, outside) => (.breakdown, outside)

/-- Whether there is a database, once it has been connected to. -/
def database (s : Surroundings σ) (c : Configuration) : Except Error Bool :=
  if c.databaseUrl = "" then .ok false else (s.connect c.databaseUrl).map fun _ => true

/-- Carry out a command under a configuration. -/
def carryOut (s : Surroundings σ) (c : Configuration) (command : Command) (outside : σ) : Outcome × σ :=
  match s.database c with
  | .error e => (.failure ("Database error: " ++ e.message), outside)
  | .ok hasDatabase => match command with
    | .geocode path bulk => s.geocode c hasDatabase path bulk outside
    | .reverse latitude longitude => s.reverse hasDatabase latitude longitude outside

end Surroundings

/-- Run the program. -/
def run (s : Surroundings σ) (outside : σ) : Outcome × σ :=
  match parse s.arguments with
  | .wrong => (.misused, outside)
  | .help lines => (.success lines, outside)
  | .command command => match Configuration.load s.sources with
    | none => (.breakdown, outside)
    | some (.error e) => (.failure ("Configuration error: " ++ e.message), outside)
    | some (.ok c) => s.carryOut c command outside

end Geocoding.CommandLine
