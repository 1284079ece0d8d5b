import Geocoding.Json.Basic

/-!
# Reading JSON

A strict reader on bytes: RFC 8259 and nothing more, so no comments, no trailing commas, no byte order
mark, and only blanks after the value. Values may nest without limit.
-/

namespace Geocoding.Json

/-- The four blanks of JSON. -/
def isSpace (b : UInt8) : Bool :=
  b == 0x20 || b == 0x0A || b == 0x0D || b == 0x09

/-- Skip blanks. -/
def skipSpace (s : Bytes) : Bytes := s.dropWhile isSpace

/-- The byte is an ASCII digit. -/
def isDigit (b : UInt8) : Bool := 0x30 ≤ b && b ≤ 0x39

/-- The value of a hexadecimal digit. -/
def hexByte? (b : UInt8) : Option Nat := Text.hexValue? (Char.ofNat b.toNat)

/-- What a one-letter escape stands for. -/
def escaped? (b : UInt8) : Option UInt8 :=
  if b == 0x22 || b == 0x5C || b == 0x2F then some b
  else if b == 0x62 then some 0x08
  else if b == 0x66 then some 0x0C
  else if b == 0x6E then some 0x0A
  else if b == 0x72 then some 0x0D
  else if b == 0x74 then some 0x09
  else none

/-- The UTF-16 unit of four hexadecimal digits. -/
def unit? (a b c d : UInt8) : Option Nat := do
  some ((((← hexByte? a) * 16 + (← hexByte? b)) * 16 + (← hexByte? c)) * 16 + (← hexByte? d))

/-- Read a string after its opening quote; the pieces read so far come last first. -/
def pieces (acc : List Piece) : Bytes → Option (List Piece × Bytes)
  | [] => none
  | b :: s =>
    if b == 0x22 then some (acc.reverse, s)
    else if b == 0x5C then
      match s with
      | [] => none
      | e :: s =>
        if e == 0x75 then
          match s with
          | h₁ :: h₂ :: h₃ :: h₄ :: s =>
            match unit? h₁ h₂ h₃ h₄ with
            | some u => pieces (.unit u :: acc) s
            | none => none
          | _ => none
        else match escaped? e with
          | some x => pieces (.byte x :: acc) s
          | none => none
    else if b < 0x20 then none
    else pieces (.byte b :: acc) s

/-- Read a string after its opening quote. -/
def readString (s : Bytes) : Option (Option String × Bytes) :=
  (pieces [] s).map fun (ps, rest) => (piecesToText? ps, rest)

/-- Digits from the front, and the rest. -/
def spanDigits (s : Bytes) : List Nat × Bytes :=
  ((s.takeWhile isDigit).map (·.toNat - 48), s.dropWhile isDigit)

/-- The digits before the point: a zero alone, or a row that starts with no zero. -/
def wholePart (s : Bytes) : Option (List Nat × Bytes) :=
  match spanDigits s with
  | ([], _) => none
  | (0 :: _ :: _, _) => none
  | (ds, s) => some (ds, s)

/-- A point and digits, if there is a point. -/
def fractionPart : Bytes → Option (Option (List Nat) × Bytes)
  | 0x2E :: s => match spanDigits s with
    | ([], _) => none
    | (ds, s) => some (some ds, s)
  | s => some (none, s)

/-- An exponent, if there is a mark of one. -/
def exponentPart (s : Bytes) : Option (Option Int × Bytes) :=
  match s with
  | [] => some (none, [])
  | b :: r =>
    if b == 0x65 || b == 0x45 then
      let (negative, r) : Bool × Bytes := match r with
        | 0x2D :: r => (true, r)
        | 0x2B :: r => (false, r)
        | r => (false, r)
      match spanDigits r with
      | ([], _) => none
      | (ds, r) =>
        let n : Int := Text.ofDigits 0 ds
        some (some (if negative then -n else n), r)
    else some (none, s)

/-- Read a number. -/
def readNumber (s : Bytes) : Option (Number × Bytes) := do
  let (negative, s) : Bool × Bytes := match s with
    | 0x2D :: s => (true, s)
    | s => (false, s)
  let (whole, s) ← wholePart s
  let (fraction, s) ← fractionPart s
  let (exponent, s) ← exponentPart s
  some (⟨negative, whole, fraction, exponent⟩, s)

/-- The rest after a word that has to come next. -/
def after? (word : Bytes) (s : Bytes) : Option Bytes :=
  if word.isPrefixOf s then some (s.drop word.length) else none

mutual

/-- Read a value; `fuel` bounds the number of steps. -/
def readValue : Nat → Bytes → Option (Json × Bytes)
  | 0, _ => none
  | fuel + 1, s =>
    match skipSpace s with
    | [] => none
    | b :: s =>
      if b == 0x22 then (readString s).map fun (t, s) => (.string t, s)
      else if b == 0x5B then
        match skipSpace s with
        | 0x5D :: s => some (.array [], s)
        | s => (readItems fuel s).map fun (items, s) => (.array items, s)
      else if b == 0x7B then
        match skipSpace s with
        | 0x7D :: s => some (.object [], s)
        | s => (readMembers fuel s).map fun (items, s) => (.object items, s)
      else if b == 0x6E then (after? [0x75, 0x6C, 0x6C] s).map fun s => (.null, s)
      else if b == 0x74 then (after? [0x72, 0x75, 0x65] s).map fun s => (.bool true, s)
      else if b == 0x66 then (after? [0x61, 0x6C, 0x73, 0x65] s).map fun s => (.bool false, s)
      else (readNumber (b :: s)).map fun (n, s) => (.number n, s)

/-- Read the items of an array that has some, and its closing bracket. -/
def readItems : Nat → Bytes → Option (List Json × Bytes)
  | 0, _ => none
  | fuel + 1, s => do
    let (item, s) ← readValue fuel s
    match skipSpace s with
    | 0x2C :: s => do
      let (items, s) ← readItems fuel s
      some (item :: items, s)
    | 0x5D :: s => some ([item], s)
    | _ => none

/-- Read the members of an object that has some, and its closing brace. -/
def readMembers : Nat → Bytes → Option (List (Option String × Json) × Bytes)
  | 0, _ => none
  | fuel + 1, s => do
    let 0x22 :: s := skipSpace s | none
    let (key, s) ← readString s
    let 0x3A :: s := skipSpace s | none
    let (item, s) ← readValue fuel s
    match skipSpace s with
    | 0x2C :: s => do
      let (items, s) ← readMembers fuel s
      some ((key, item) :: items, s)
    | 0x7D :: s => some ([(key, item)], s)
    | _ => none

end

/-- The value that the bytes spell. -/
def parse? (s : Bytes) : Option Json :=
  match readValue (s.length + 1) s with
  | some (j, rest) => if (skipSpace rest).isEmpty then some j else none
  | none => none

end Geocoding.Json
