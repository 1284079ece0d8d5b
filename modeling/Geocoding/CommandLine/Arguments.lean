import Geocoding.Double.Read

/-!
# Arguments of the command line

A command is a word followed by flags, some of which take a value: in the next argument, or behind an equals
sign. Arguments are taken from left to right, and the first one that is wrong, or asks for help, decides.
-/

namespace Geocoding.CommandLine

/-- What can be asked of the program. -/
inductive Command where
  /-- Resolve the addresses in a file, by bulk submissions or one by one. -/
  | geocode (path : String) (bulk : Bool)
  /-- Find the address nearest to a point. -/
  | reverse (latitude longitude : Double)
deriving DecidableEq

/-- What the arguments mean. -/
inductive Request where
  | command (c : Command)
  | help (lines : List String)
  | wrong
deriving DecidableEq

/-- What a flag takes: nothing, or a value. -/
inductive Operand where
  | none
  /-- A value that `accepts` is true of; `hyphens` says whether it may look like a flag. -/
  | value (hyphens : Bool) (accepts : String → Bool)

/-- A flag. -/
structure Flag where
  name : String
  operand : Operand

/-- The flags that were found, with their values, in order. -/
inductive Scan where
  | found (values : List (String × String))
  | help
  | wrong

/-- The value can be told from a flag. -/
def standsAlone (value : String) : Bool :=
  match value.toList with
  | ['-'] => true
  | '-' :: _ => false
  | _ => true

/-- The argument is one of those that ask for help; short flags may be written together. -/
def asksForHelp (argument : String) : Bool :=
  argument == "--help" || "-h".isPrefixOf argument

/-- A flag in the form with an equals sign: its name and its value. -/
def splitEquals (argument : String) : Option (String × String) :=
  if "--".isPrefixOf argument then
    (argument.toList.splitOn '=').head?.bind fun name =>
      let rest := argument.toList.drop (name.length + 1)
      if name.length = argument.length then none else some (String.ofList name, String.ofList rest)
  else none

/-- Add a flag with a value to those found before; each may be given once. -/
def take (found : List (String × String)) (name value : String) : Option (List (String × String)) :=
  if (found.lookup name).isSome then none else some (found ++ [(name, value)])

/-- Find flags. -/
def scan (flags : List Flag) (found : List (String × String)) : List String → Scan
  | [] => .found found
  | [argument] => last argument
  | argument :: next :: rest =>
    match flags.find? (·.name == argument) with
    | some ⟨name, .value hyphens accepts⟩ =>
      if (hyphens || standsAlone next) && accepts next then
        match take found name next with
        | some found => scan flags found rest
        | none => .wrong
      else .wrong
    | _ => match single argument with
      | .found found => scan flags found (next :: rest)
      | outcome => outcome
where
  /-- An argument that takes nothing from the next one. -/
  single (argument : String) : Scan :=
    if asksForHelp argument then .help
    else match splitEquals argument with
      | some (name, value) => match flags.find? (·.name == name) with
        | some ⟨name, .value _ accepts⟩ =>
          if accepts value then match take found name value with
            | some found => .found found
            | none => .wrong
          else .wrong
        | _ => .wrong
      | none => match flags.find? (·.name == argument) with
        | some ⟨name, .none⟩ => match take found name "" with
          | some found => .found found
          | none => .wrong
        | _ => .wrong
  /-- The last argument; two hyphens alone end the flags. -/
  last (argument : String) : Scan :=
    if argument == "--" then .found found else single argument

/-- The flags of `geocode`. -/
def geocodeFlags : List Flag :=
  [⟨"--input", .value false (· != "")⟩, ⟨"--bulk", .none⟩]

/-- The flags of `reverse`. -/
def reverseFlags : List Flag :=
  let coordinate := Operand.value true fun s => (Double.read? s).isSome
  [⟨"--lat", coordinate⟩, ⟨"--lng", coordinate⟩]

/-- The help on all commands. -/
def helpText : List String := [
  "Resolve addresses to coordinates",
  "",
  "Usage: geocode-enricher <COMMAND>",
  "",
  "Commands:",
  "  geocode  Geocode a CSV file with columns id,street,city,state,zip",
  "  reverse  Look up the nearest address for a coordinate pair",
  "  help     Print this message or the help of the given subcommand(s)",
  "",
  "Options:",
  "  -h, --help  Print help"]

/-- The help on `geocode`. -/
def geocodeHelp : List String := [
  "Geocode a CSV file with columns id,street,city,state,zip",
  "",
  "Usage: geocode-enricher geocode [OPTIONS] --input <INPUT>",
  "",
  "Options:",
  "      --input <INPUT>  Input CSV path (header row required)",
  "      --bulk           Submit cache misses through the Census batch endpoint first",
  "  -h, --help           Print help"]

/-- The help on `reverse`. -/
def reverseHelp : List String := [
  "Look up the nearest address for a coordinate pair",
  "",
  "Usage: geocode-enricher reverse --lat <LAT> --lng <LNG>",
  "",
  "Options:",
  "      --lat <LAT>  ",
  "      --lng <LNG>  ",
  "  -h, --help       Print help"]

/-- The help on `help`. -/
def helpHelp : List String := [
  "Print this message or the help of the given subcommand(s)",
  "",
  "Usage: geocode-enricher help [COMMAND]",
  "",
  "Commands:",
  "  geocode  Geocode a CSV file with columns id,street,city,state,zip",
  "  reverse  Look up the nearest address for a coordinate pair",
  "  help     Print this message or the help of the given subcommand(s)"]

/-- The command that flags ask for, if none that is needed is missing. -/
def request (help : List String) (command : List (String × String) → Option Command) : Scan → Request
  | .help => .help help
  | .wrong => .wrong
  | .found values => match command values with
    | some c => .command c
    | none => .wrong

/-- The command `geocode` of its flags. -/
def geocodeOf (values : List (String × String)) : Option Command := do
  some (.geocode (← values.lookup "--input") (values.lookup "--bulk").isSome)

/-- The command `reverse` of its flags. -/
def reverseOf (values : List (String × String)) : Option Command := do
  some (.reverse (← Double.read? (← values.lookup "--lat")) (← Double.read? (← values.lookup "--lng")))

/-- What arguments mean. -/
def parse : List String → Request
  | "geocode" :: rest => request geocodeHelp geocodeOf (scan geocodeFlags [] rest)
  | "reverse" :: rest => request reverseHelp reverseOf (scan reverseFlags [] rest)
  | ["help"] => .help helpText
  | ["help", "geocode"] => .help geocodeHelp
  | ["help", "reverse"] => .help reverseHelp
  | ["help", "help"] => .help helpHelp
  | argument :: _ => if asksForHelp argument then .help helpText else .wrong
  | [] => .wrong

end Geocoding.CommandLine
