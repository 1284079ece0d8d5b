import Geocoding.Text.Alphanumeric
import Geocoding.Text.Ascii
import Geocoding.Text.Blank
import Geocoding.Text.Utf8

/-!
# Environment files

A file of `NAME=value` lines that adds variables to the environment; variables that are there already win.
Values may be quoted, may go on over lines between quotes, and may refer to variables that are set before
them. A line that cannot be read ends the file; what stood before it counts.
-/

namespace Geocoding

/-- The variables of a process. -/
abbrev Environment := List (String × String)

/-- The variables in a block of `NAME=value` entries with zero bytes between them. An entry that is ill-formed as
text counts as not set. -/
def Environment.ofBlock (block : Bytes) : Environment :=
  (block.splitOn 0).filterMap fun entry => do
    let (name, value) ← Text.splitAtFirst '=' (← Text.decode? entry).toList
    return (String.ofList name, String.ofList value)

namespace DotEnv

/-- Where the search for the end of a line stands. -/
inductive Scan where
  | plain
  | blank
  | escape
  | single
  | singleEscape
  | double
  | doubleEscape
deriving DecidableEq

/-- Scan one character; `none` where a comment begins. -/
def Scan.step (state : Scan) (c : Char) : Option Scan :=
  let word : Scan := if c == '\\' then escape else if c == '"' then double
    else if c == '\'' then single else plain
  match state with
  | blank => if c == '#' then none else some word
  | plain => if Text.isBlank c && c != '\n' && c != '\r' then some blank else some word
  | escape => some plain
  | double => some (if c == '\\' then doubleEscape else if c == '"' then plain else double)
  | doubleEscape => some double
  | single => some (if c == '\\' then singleEscape else if c == '\'' then plain else single)
  | singleEscape => some single

/-- Scan a line up to a comment: the characters before it, and the state at the end, which is none if there
is a comment. -/
def scanLine (state : Scan) : List Char → List Char × Option Scan
  | [] => ([], some state)
  | c :: s => match state.step c with
    | none => ([], none)
    | some state =>
      let (before, final) := scanLine state s
      (c :: before, final)

/-- A line without its end. -/
def chomp (s : List Char) : List Char :=
  match s.reverse with
  | '\n' :: '\r' :: r => r.reverse
  | '\n' :: r => r.reverse
  | _ => s

/-- Put lines together where a quote or an escape goes on to the next one. The second part of an entry tells
a whole line from the beginning of one that has no end. -/
def joinLines (begun : List Char) (state : Scan) : List (List Char) → List (List Char × Bool)
  | [] => if state = .plain then [] else [(begun, false)]
  | line :: lines =>
    if ((begun ++ line).dropWhile Text.isBlank).head? = some '#' then
      ([], true) :: joinLines [] .plain lines
    else match scanLine state line with
      | (_, some .plain) => (chomp (begun ++ line), true) :: joinLines [] .plain lines
      | (_, some state) => joinLines (begun ++ line) state lines
      | (before, none) => (begun ++ before, true) :: joinLines [] .plain lines

/-- A reference to a variable that is being read. -/
inductive Reference where
  | none
  | open (name : List Char)
  | braced (name : List Char)

/-- A value in the middle of being read. -/
structure Reading where
  single : Bool := false
  double : Bool := false
  escaped : Bool := false
  /-- A blank has ended the value; only blanks and a comment may follow. -/
  ended : Bool := false
  reference : Reference := .none
  /-- What was read so far, last first. -/
  read : List Char := []

/-- Put the value of a variable, or nothing, in the place of a reference. -/
def Reading.resolve (env : Environment) (r : Reading) (name : List Char) : Reading :=
  let value := (env.lookup (String.ofList name.reverse)).getD ""
  { r with reference := .none, read := value.toList.reverse ++ r.read }

/-- Take a character that is neither escaped nor part of a reference. -/
def Reading.stepPlain (r : Reading) (c : Char) : Reading :=
  if c == '$' then { r with reference := .open [] }
  else if r.double then
    if c == '"' then { r with double := false }
    else if c == '\\' then { r with escaped := true }
    else { r with read := c :: r.read }
  else if c == '\'' then { r with single := true }
  else if c == '"' then { r with double := true }
  else if c == '\\' then { r with escaped := true }
  else if c == ' ' || c == '\t' then { r with ended := true }
  else { r with read := c :: r.read }

/-- Take a character behind a backslash. -/
def Reading.stepEscaped (r : Reading) (c : Char) : Option Reading :=
  if c == '\\' || c == '\'' || c == '"' || c == '$' || c == ' ' then
    some { r with escaped := false, read := c :: r.read }
  else if c == 'n' then some { r with escaped := false, read := '\n' :: r.read }
  else none

/-- Take a character of a reference, or the one that ends it. -/
def Reading.stepReference (env : Environment) (r : Reading) (c : Char) : Reading :=
  match r.reference with
  | .none => r.stepPlain c
  | .open name =>
    if Text.isAlphanumeric c then { r with reference := .open (c :: name) }
    else if c == '\x7b' && name.isEmpty then { r with reference := .braced [] }
    else
      let r := r.resolve env name
      if c == '$' then { r with reference := .open [] } else { r with read := c :: r.read }
  | .braced name =>
    if c == '\x7d' then r.resolve env name else { r with reference := .braced (c :: name) }

/-- The value that was read, unless a quote or a reference is left open. -/
def Reading.close (env : Environment) (r : Reading) : Option String :=
  match r.reference with
  | .braced _ => none
  | .open name =>
    if r.single || r.double then none else some (String.ofList (r.resolve env name).read.reverse)
  | .none => if r.single || r.double then none else some (String.ofList r.read.reverse)

/-- Read the rest of a value. -/
def readValue (env : Environment) (r : Reading) : List Char → Option String
  | [] => r.close env
  | c :: s =>
    if r.ended then
      if c == ' ' || c == '\t' then readValue env r s
      else if c == '#' then r.close env
      else none
    else if r.escaped then
      match r.stepEscaped c with
      | some r => readValue env r s
      | none => none
    else if r.single then
      readValue env (if c == '\'' then { r with single := false } else { r with read := c :: r.read }) s
    else readValue env (r.stepReference env c) s

/-- Skip blanks. -/
def skipBlanks (s : List Char) : List Char := s.dropWhile Text.isBlank

/-- Take a name from the front of a line. -/
def takeName (s : List Char) : Option (String × List Char) :=
  match s with
  | c :: _ =>
    if c.isAlpha || c == '_' then
      let name := s.takeWhile fun c => c.isAlphanum || c == '_' || c == '.'
      some (String.ofList name, s.drop name.length)
    else none
  | [] => none

/-- Take an equals sign from the front of a line. -/
def takeEquals : List Char → Option (List Char)
  | '=' :: s => some s
  | _ => none

/-- Take a name and its equals sign; the word `export` may stand before the name. -/
def takeTarget (s : List Char) : Option (String × List Char) := do
  let (name, s) ← takeName s
  let s := skipBlanks s
  match takeEquals s with
  | some s => some (name, s)
  | none =>
    if name = "export" then
      let (name, s) ← takeName s
      some (name, ← takeEquals (skipBlanks s))
    else none

/-- Read a line: a variable and its value, nothing (`some none`), or a line that cannot be read. -/
def readLine (env : Environment) (line : List Char) : Option (Option (String × String)) :=
  match skipBlanks (Text.dropEnd Text.isBlank line) with
  | [] => some none
  | '#' :: _ => some none
  | s => do
    let (name, s) ← takeTarget s
    match skipBlanks s with
    | [] => some (some (name, ""))
    | '#' :: _ => some (some (name, ""))
    | s => some (some (name, ← readValue env {} s))

/-- Read lines into an environment; `none` if a value cannot be held by one, because it has a NUL. -/
def loadLines (env : Environment) : List (List Char × Bool) → Option Environment
  | [] => some env
  | (_, false) :: _ => some env
  | (line, true) :: lines => match readLine env line with
    | none => some env
    | some none => loadLines env lines
    | some (some (name, value)) =>
      if (env.lookup name).isSome then loadLines env lines
      else if value.toList.contains '\x00' then none
      else loadLines (env ++ [(name, value)]) lines

/-- The lines of bytes, each with its end, up to the first that is ill-formed. -/
def textLines (begun : List UInt8) : List UInt8 → List (List Char)
  | [] => match Text.decode? begun.reverse with
    | some s => if s = "" then [] else [s.toList]
    | none => []
  | b :: s =>
    if b = 0x0A then match Text.decode? (b :: begun).reverse with
      | some line => line.toList :: textLines [] s
      | none => []
    else textLines (b :: begun) s

/-- Add the variables of a file to an environment. -/
def load (env : Environment) (file : Bytes) : Option Environment :=
  let file := match file with
    | 0xEF :: 0xBB :: 0xBF :: rest => rest
    | file => file
  loadLines env (joinLines [] .plain (textLines [] file))

end DotEnv

end Geocoding
