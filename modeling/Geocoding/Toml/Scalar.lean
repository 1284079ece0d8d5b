import Geocoding.Double.Basic
import Geocoding.Text.Ascii

/-!
# Scalars of TOML

Strings in their four spellings, and the numbers, dates and times. Each reader takes what it can from the
front of a text and returns the rest.
-/

namespace Geocoding.Toml

/-- A blank inside a line. -/
def isSpace (c : Char) : Bool := c == ' ' || c == '\t'

/-- Skip blanks inside a line. -/
def skipSpace (s : List Char) : List Char := s.dropWhile isSpace

/-- A character that may stand in a comment, and, special ones apart, in a string. -/
def isPrintable (c : Char) : Bool :=
  c == '\t' || (0x20 ≤ c.toNat && c.toNat != 0x7F)

/-- Take the end of a line. -/
def newline? : List Char → Option (List Char)
  | '\n' :: s => some s
  | '\r' :: '\n' :: s => some s
  | _ => none

/-- The number that hexadecimal digits denote. -/
def ofHexDigits (s : List Char) : Option Nat :=
  s.foldlM (fun n c => (Text.hexValue? c).map (16 * n + ·)) 0

/-- The character with a code point written in hexadecimal. -/
def codePoint? (s : List Char) : Option Char := do
  let n ← ofHexDigits s
  if h : n.isValidChar then some (Char.ofNatAux n h) else none

/-- Take an escape after its backslash. -/
def takeEscape : List Char → Option (Char × List Char)
  | 'b' :: s => some ('\x08', s)
  | 't' :: s => some ('\t', s)
  | 'n' :: s => some ('\n', s)
  | 'f' :: s => some ('\x0C', s)
  | 'r' :: s => some ('\r', s)
  | '"' :: s => some ('"', s)
  | '\\' :: s => some ('\\', s)
  | 'u' :: s => do
    if s.length < 4 then none
    some (← codePoint? (s.take 4), s.drop 4)
  | 'U' :: s => do
    if s.length < 8 then none
    some (← codePoint? (s.take 8), s.drop 8)
  | _ => none

/-- Take the rest of a string between single double quotes; `fuel` bounds the number of steps. -/
def takeBasic : Nat → List Char → List Char → Option (String × List Char)
  | 0, _, _ => none
  | fuel + 1, acc, s => match s with
    | [] => none
    | '"' :: s => some (String.ofList acc.reverse, s)
    | '\\' :: s => do
      let (c, s) ← takeEscape s
      takeBasic fuel (c :: acc) s
    | c :: s => if isPrintable c then takeBasic fuel (c :: acc) s else none

/-- Take the rest of a string between single apostrophes. -/
def takeLiteral (s : List Char) : Option (String × List Char) :=
  let body := s.takeWhile fun c => isPrintable c && c != '\''
  match s.drop body.length with
  | '\'' :: rest => some (String.ofList body, rest)
  | _ => none

/-- Take a row of at least three quotes at the end of a string: all but the last three, of which there may
be two, belong to it. -/
def takeClosing (quote : Char) (s : List Char) : Option (List Char × List Char) :=
  let row := (s.takeWhile (· == quote)).length
  if row < 3 then none
  else
    let extra := min (row - 3) 2
    some (List.replicate extra quote, s.drop (extra + 3))

/-- Skip blanks and line ends. -/
def skipLines : List Char → List Char
  | '\r' :: '\n' :: s => skipLines s
  | c :: s => if isSpace c || c == '\n' then skipLines s else c :: s
  | [] => []

/-- Take the rest of a string between triple quotes of a kind; only double quotes know escapes. -/
def takeMultiline (quote : Char) : Nat → List Char → List Char → Option (String × List Char)
  | 0, _, _ => none
  | fuel + 1, acc, s =>
    match takeClosing quote s with
    | some (extra, s) => some (String.ofList (acc.reverse ++ extra), s)
    | none => match s with
      | [] => none
      | '\r' :: '\n' :: s => takeMultiline quote fuel ('\n' :: acc) s
      | c :: s =>
        if c == '\\' && quote == '"' then
          match newline? (skipSpace s) with
          | some rest => takeMultiline quote fuel acc (skipLines rest)
          | none => do
            let (c, s) ← takeEscape s
            takeMultiline quote fuel (c :: acc) s
        else if isPrintable c || c == '\n' then takeMultiline quote fuel (c :: acc) s
        else none

/-- Take a string between single quotes of either kind. -/
def takeLineString : List Char → Option (String × List Char)
  | '"' :: s => takeBasic (s.length + 1) [] s
  | '\'' :: s => takeLiteral s
  | _ => none

/-- Take a string; a line end right behind triple quotes does not count. -/
def takeString (s : List Char) : Option (String × List Char) :=
  let multiline (quote : Char) (s : List Char) :=
    let s := (newline? s).getD s
    takeMultiline quote (s.length + 1) [] s
  match s with
  | '"' :: '"' :: '"' :: s => multiline '"' s
  | '\'' :: '\'' :: '\'' :: s => multiline '\'' s
  | _ => takeLineString s

/-- Take digits of a kind, with single underscores between them. -/
def takeDigits (isDigit : Char → Bool) : List Char → List Char × List Char
  | [] => ([], [])
  | c :: s =>
    if !isDigit c then ([], c :: s)
    else match s with
      | '_' :: d :: s =>
        if isDigit d then
          let (ds, rest) := takeDigits isDigit (d :: s)
          (c :: ds, rest)
        else ([c], '_' :: d :: s)
      | s =>
        let (ds, rest) := takeDigits isDigit s
        (c :: ds, rest)

/-- Take a sign. -/
def takeSign : List Char → Bool × List Char
  | '-' :: s => (true, s)
  | '+' :: s => (false, s)
  | s => (false, s)

/-- Take decimal digits without a zero before others. -/
def takeWhole (s : List Char) : Option (List Char × List Char) :=
  match s with
  | '0' :: s => some (['0'], s)
  | s => match takeDigits Char.isDigit s with
    | ([], _) => none
    | (ds, s) => some (ds, s)

/-- The number that digits of a base denote. -/
def valueOf (base : Nat) (ds : List Char) : Nat :=
  ds.foldl (fun n c => base * n + (Text.hexValue? c).getD 0) 0

/-- An integer in 64 bits. -/
def int64? (n : Int) : Option Int :=
  if -(Nat.pow 2 63 : Int) ≤ n ∧ n < Nat.pow 2 63 then some n else none

/-- Take an integer in a base with a mark. -/
def takeBased (base : Nat) (isDigit : Char → Bool) (s : List Char) : Option (Int × List Char) :=
  match takeDigits isDigit s with
  | ([], _) => none
  | (ds, s) => (int64? (valueOf base ds)).map (·, s)

/-- Take an integer. -/
def takeInteger (s : List Char) : Option (Int × List Char) :=
  match s with
  | '0' :: 'x' :: s => takeBased 16 (fun c => (Text.hexValue? c).isSome) s
  | '0' :: 'o' :: s => takeBased 8 (fun c => '0' ≤ c && c ≤ '7') s
  | '0' :: 'b' :: s => takeBased 2 (fun c => c == '0' || c == '1') s
  | s => do
    let (negative, s) := takeSign s
    let (ds, s) ← takeWhole s
    let n : Int := valueOf 10 ds
    some (← int64? (if negative then -n else n), s)

/-- Take an exponent part. -/
def takeExponent : List Char → Option (Int × List Char)
  | c :: s => do
    if c != 'e' && c != 'E' then none
    let (negative, s) := takeSign s
    match takeDigits Char.isDigit s with
    | ([], _) => none
    | (ds, s) =>
      let n : Int := valueOf 10 ds
      some (if negative then -n else n, s)
  | [] => none

/-- Take a float with digits; one too large for a double is none. -/
def takeDecimal (s : List Char) : Option (List Char) := do
  let (negative, s) := takeSign s
  let (whole, s) ← takeWhole s
  let (fraction, e, s) : List Char × Int × List Char ← match s with
    | '.' :: s => match takeDigits Char.isDigit s with
      | ([], _) => none
      | (ds, s) => match takeExponent s with
        | some (e, s) => some (ds, e, s)
        | none => some (ds, 0, s)
    | s => (takeExponent s).map fun (e, s) => ([], e, s)
  let x := Double.ofScientific negative (valueOf 10 (whole ++ fraction)) (e - fraction.length)
  if x = Double.infinity false then none
  some s

/-- Take a float. -/
def takeFloat (s : List Char) : Option (List Char) :=
  match takeDecimal s with
  | some s => some s
  | none => match (takeSign s).2 with
    | 'i' :: 'n' :: 'f' :: s => some s
    | 'n' :: 'a' :: 'n' :: s => some s
    | _ => none

/-- Take a number of exactly so many digits, between bounds. -/
def takeField (width low high : Nat) (s : List Char) : Option (Nat × List Char) :=
  let ds := s.take width
  let n := valueOf 10 ds
  if ds.length = width ∧ ds.all Char.isDigit ∧ low ≤ n ∧ n ≤ high then some (n, s.drop width)
  else none

/-- Take a character that has to come next. -/
def takeChar (c : Char) : List Char → Option (List Char)
  | d :: s => if c = d then some s else none
  | [] => none

/-- The number of days of a month. -/
def daysOf (year month : Nat) : Nat :=
  if month = 2 then if year % 4 = 0 ∧ (year % 100 ≠ 0 ∨ year % 400 = 0) then 29 else 28
  else if month = 4 ∨ month = 6 ∨ month = 9 ∨ month = 11 then 30
  else 31

/-- Take a date. -/
def takeDate (s : List Char) : Option (List Char) := do
  let (year, s) ← takeField 4 0 9999 s
  let (month, s) ← takeField 2 1 12 (← takeChar '-' s)
  let (_, s) ← takeField 2 1 (daysOf year month) (← takeChar '-' s)
  some s

/-- Take a time of day. -/
def takeTime (s : List Char) : Option (List Char) := do
  let (_, s) ← takeField 2 0 23 s
  let (_, s) ← takeField 2 0 59 (← takeChar ':' s)
  let (_, s) ← takeField 2 0 60 (← takeChar ':' s)
  match s with
  | '.' :: r =>
    let ds := r.takeWhile Char.isDigit
    if ds.isEmpty then none
    some (r.drop ds.length)
  | s => some s

/-- Take an offset from UTC, if there is one. -/
def takeOffset (s : List Char) : Option (List Char) :=
  match s with
  | 'Z' :: s => some s
  | 'z' :: s => some s
  | c :: r =>
    if c == '+' || c == '-' then do
      let (_, r) ← takeField 2 0 23 r
      let (_, r) ← takeField 2 0 59 (← takeChar ':' r)
      some r
    else some s
  | [] => some []

/-- Take a date, a time of day, or both, with or without an offset. -/
def takeDatetime (s : List Char) : Option (List Char) :=
  match takeDate s with
  | some s => match s with
    | c :: r =>
      if c == 'T' || c == 't' then (takeTime r).bind takeOffset
      else if c == ' ' then
        match takeTime r with
        | some r => takeOffset r
        | none => some s
      else some s
    | [] => some []
  | none => takeTime s

end Geocoding.Toml
