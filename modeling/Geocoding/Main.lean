import Geocoding.CommandLine.Run

/-!
# The program

The command line in its actual surroundings: files, variables and the clock. There are no connections to
outside services here, so every request fails, and so does connecting to a database.
-/

namespace Geocoding.CommandLine

/-- The contents of a file, or why there are none. -/
def readContents (path : String) : IO (Except String Bytes) := do
  try
    return .ok (← IO.FS.readBinFile path).data.toList
  catch e =>
    return .error (toString e)

/-- The contents of a file, if there is one. -/
def readIfThere (path : String) : IO (Option Bytes) :=
  return (← readContents path).toOption

/-- The contents of a file in this directory or the nearest one above it, `n` at most. -/
def readUpwards (n : Nat) (path : String) : IO (Option Bytes) :=
  match n with
  | 0 => return none
  | n + 1 => do
    match ← readIfThere path with
    | some file => return some file
    | none => readUpwards n ("../" ++ path)

/-- The variables that are set. Where they cannot be read as a whole, they are those that a configuration looks up,
each read by its name. -/
def readVariables : IO Environment := do
  match ← readIfThere "/proc/self/environ" with
  | some block => return .ofBlock block
  | none =>
    let values ← Configuration.variableNames.mapM fun name => return (name, ← IO.getEnv name)
    return values.filterMap fun (name, value) => value.map (name, ·)

/-- The file that a command reads. -/
def inputPath? (arguments : List String) : Option String :=
  match parse arguments with
  | .command (.geocode path _) => some path
  | _ => none

/-- The actual surroundings. The input is read ahead, so that the run itself asks nothing. Nothing that a
run writes shows its time, so it counts from any point. -/
def surroundings (arguments : List String) : IO (Surroundings Bool) := do
  let input ← match inputPath? arguments with
    | some path => readContents path
    | none => pure (.error "")
  let time ← IO.monoNanosNow
  return {
    arguments
    sources := {
      environment := ← readVariables
      environmentFile := ← readUpwards 64 ".env"
      file := ← readIfThere Configuration.fileName }
    contentsOf := fun _ => input
    connect := fun _ => .error (.database "connect failed: no connection")
    services := Service.unreachable
    clock := fun _ => time }

end Geocoding.CommandLine

/-- Run the program, print what it writes and complains of, and end with its exit code. -/
def main (arguments : List String) : IO UInt32 := do
  let (outcome, _) := Geocoding.CommandLine.run (← Geocoding.CommandLine.surroundings arguments) false
  for line in outcome.lines do
    IO.println line
  if let some complaint := outcome.complaint then
    IO.eprintln complaint
  return outcome.exitCode.toUInt32
