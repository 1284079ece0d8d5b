import Geocoding.Toml.Basic
import Geocoding.Toml.Scalar

/-!
# Reading TOML

TOML 1.0 documents. Values nest at most 80 deep, and a dotted key has fewer than 80 parts.
-/

namespace Geocoding.Toml

/-- How deep values may nest. -/
def maxDepth : Nat := 80

/-- Skip blanks, line ends and comments. -/
def skipFiller : Bool → List Char → Option (List Char)
  | _, [] => some []
  | true, c :: s =>
    if c == '\n' then skipFiller false s
    else if c == '\r' then match s with
      | '\n' :: s => skipFiller false s
      | _ => none
    else if isPrintable c then skipFiller true s
    else none
  | false, c :: s =>
    if isSpace c || c == '\n' then skipFiller false s
    else if c == '\r' then match s with
      | '\n' :: s => skipFiller false s
      | _ => none
    else if c == '#' then skipFiller true s
    else some (c :: s)

/-- A character of a key without quotes. -/
def isBare (c : Char) : Bool := c.isAlphanum || c == '_' || c == '-'

/-- Take one part of a key. -/
def takeSimpleKey (s : List Char) : Option (String × List Char) :=
  match s with
  | c :: _ =>
    if c == '"' || c == '\'' then takeLineString s
    else
      let word := s.takeWhile isBare
      if word.isEmpty then none else some (String.ofList word, s.drop word.length)
  | [] => none

/-- Take a key of one or more parts, with the blanks around the parts. -/
def takeDottedKey : Nat → List Char → Option (List String × List Char)
  | 0, _ => none
  | fuel + 1, s => do
    let (part, s) ← takeSimpleKey (skipSpace s)
    match skipSpace s with
    | '.' :: s =>
      let (parts, s) ← takeDottedKey fuel s
      some (part :: parts, s)
    | s => some ([part], s)

/-- Take a key. -/
def takeKey (s : List Char) : Option (List String × List Char) := takeDottedKey (maxDepth - 1) s

/-- Take a word that has to come next. -/
def takeWord (w : String) (s : List Char) : Option (List Char) :=
  if w.toList.isPrefixOf s then some (s.drop w.length) else none

/-- Take a number, a date or a time. -/
def takeNumberOrTime (s : List Char) : Option (Toml × List Char) :=
  match takeDatetime s with
  | some s => some (.datetime, s)
  | none => match takeFloat s with
    | some s => some (.float, s)
    | none => (takeInteger s).map fun (n, s) => (.integer n, s)

/-- What takes a value from the front of a text. -/
abbrev Taker : Type := List Char → Option (Toml × List Char)

/-- Take the items of an array up to its closing bracket; `item` takes one. -/
def takeItems (item : Taker) : Nat → List Char → Option (List Toml × List Char)
  | 0, _ => none
  | fuel + 1, s => do
    match ← skipFiller false s with
    | ']' :: s => some ([], s)
    | s =>
      let (first, s) ← item s
      match ← skipFiller false s with
      | ',' :: s =>
        let (rest, s) ← takeItems item fuel s
        some (first :: rest, s)
      | ']' :: s => some ([first], s)
      | _ => none

/-- Take a key and its value. -/
def takeKeyValue (value : Taker) (s : List Char) : Option ((List String × Toml) × List Char) := do
  let (path, s) ← takeKey s
  let (v, s) ← value (skipSpace (← takeChar '=' s))
  some ((path, v), s)

/-- Take the entries of a table in braces, at least one, up to its closing brace. -/
def takeInlineEntries (value : Taker) : Nat → Toml → List Char → Option (Toml × List Char)
  | 0, _, _ => none
  | fuel + 1, t, s => do
    let ((path, v), s) ← takeKeyValue value s
    let t ← addDotted path.dropLast (← path.getLast?) v t
    match skipSpace s with
    | ',' :: s => takeInlineEntries value fuel t s
    | '\x7d' :: s => some (t, s)
    | _ => none

/-- Take a table in braces after its opening one. -/
def takeInlineTable (value : Taker) (s : List Char) : Option (Toml × List Char) :=
  match skipSpace s with
  | '\x7d' :: s => some (.table .inline [], s)
  | s => takeInlineEntries value (s.length + 1) (.table .inline []) s

/-- Take a value that nests less than `depth` deep. -/
def takeValue : Nat → List Char → Option (Toml × List Char)
  | 0, _ => none
  | depth + 1, s =>
    match s with
    | [] => none
    | c :: r =>
      if c == '"' || c == '\'' then (takeString s).map fun (t, s) => (.string t, s)
      else if c == '[' then
        if depth = 0 then none
        else (takeItems (takeValue depth) (r.length + 1) r).map fun (ts, s) => (.array ts, s)
      else if c == '\x7b' then
        if depth = 0 then none else takeInlineTable (takeValue depth) r
      else if c == 't' then (takeWord "true" s).map (.bool true, ·)
      else if c == 'f' then (takeWord "false" s).map (.bool false, ·)
      else takeNumberOrTime s

/-- Take the rest of a line: blanks, a comment, and its end. -/
def restOfLine (s : List Char) : Option (List Char) :=
  match skipSpace s with
  | [] => some []
  | '#' :: s =>
    let s := s.dropWhile isPrintable
    if s.isEmpty then some [] else newline? s
  | s => newline? s

/-- A document that is being read: the table that lines add to is at the end of `path`. -/
structure Draft where
  path : List String := []
  root : Toml := .table .header []

/-- Take a header and open its table. -/
def takeHeader (d : Draft) (s : List Char) : Option (Draft × List Char) := do
  let (double, s) : Bool × List Char := match s with
    | '[' :: s => (true, s)
    | s => (false, s)
  let (path, s) ← takeKey s
  let s ← takeWord (if double then "]]" else "]") s
  let last ← path.getLast?
  let root ← modifyAt false (if double then openNext last else openTable last) path.dropLast d.root
  some (⟨path, root⟩, ← restOfLine s)

/-- Take a line with a key and a value. -/
def takeAssignment (d : Draft) (s : List Char) : Option (Draft × List Char) := do
  let ((path, v), s) ← takeKeyValue (takeValue maxDepth) s
  let root ← modifyAt false (addDotted path.dropLast (← path.getLast?) v) d.path d.root
  some ({ d with root }, ← restOfLine s)

/-- Take the lines of a document. -/
def takeLines : Nat → Draft → List Char → Option Toml
  | 0, _, _ => none
  | fuel + 1, d, s => do
    match ← skipFiller false s with
    | [] => some d.root
    | '[' :: s =>
      let (d, s) ← takeHeader d s
      takeLines fuel d s
    | s =>
      let (d, s) ← takeAssignment d s
      takeLines fuel d s

/-- Read a document; a byte order mark before it is dropped. -/
def parse? (text : String) : Option Toml :=
  let s := match text.toList with
    | '\uFEFF' :: s => s
    | s => s
  takeLines (s.length + 1) {} s

end Geocoding.Toml
