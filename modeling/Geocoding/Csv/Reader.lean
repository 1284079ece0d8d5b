import Geocoding.Text.Utf8

/-!
# Reading CSV

Records of fields from comma-separated text, by an automaton that takes one symbol at a time. It never
fails: a quote counts only at the start of a field, text after a closing quote is kept, an open quote runs
to the end. Each of CR, LF and CRLF ends a record, and empty lines are no records. The symbols are
characters or bytes; `Marks` says which of them are special.
-/

namespace Geocoding.Csv

/-- The special symbols. -/
structure Marks (α : Type) where
  comma : α
  quote : α
  cr : α
  lf : α

/-- The special characters. -/
def Marks.chars : Marks Char := ⟨',', '"', '\r', '\n'⟩

/-- The special bytes. -/
def Marks.bytes : Marks UInt8 := ⟨0x2C, 0x22, 0x0D, 0x0A⟩

/-- Where the reader stands. -/
inductive Mode where
  /-- Between records. -/
  | record
  /-- Behind a comma. -/
  | field
  /-- In a field without quotes, or behind the closing quote of one. -/
  | plain
  /-- Between quotes. -/
  | quoted
  /-- Behind a quote that either closes the field or begins a doubled one. -/
  | closing
deriving DecidableEq

/-- A reader in the middle of its input: the field, the record and the records read so far, each last
first. -/
structure Reader (α : Type) where
  mode : Mode := .record
  field : List α := []
  record : List (List α) := []
  records : List (List (List α)) := []

namespace Reader

variable {α : Type} [DecidableEq α]

/-- Take a symbol into the field. -/
def push (r : Reader α) (c : α) (mode : Mode) : Reader α :=
  { r with mode, field := c :: r.field }

/-- End the field. -/
def endField (r : Reader α) : Reader α :=
  { r with mode := .field, field := [], record := r.field.reverse :: r.record }

/-- End the field and the record. -/
def endRecord (r : Reader α) : Reader α :=
  { records := (r.field.reverse :: r.record).reverse :: r.records }

/-- Take a symbol outside quotes: it may end the field or the record. -/
def stepPlain (m : Marks α) (r : Reader α) (c : α) : Reader α :=
  if c = m.comma then r.endField
  else if c = m.cr ∨ c = m.lf then r.endRecord
  else r.push c .plain

/-- Take a symbol at the start of a field. -/
def stepField (m : Marks α) (r : Reader α) (c : α) : Reader α :=
  if c = m.quote then { r with mode := .quoted } else r.stepPlain m c

/-- Take one symbol. -/
def step (m : Marks α) (r : Reader α) (c : α) : Reader α :=
  match r.mode with
  | .record => if c = m.cr ∨ c = m.lf then r else r.stepField m c
  | .field => r.stepField m c
  | .plain => r.stepPlain m c
  | .quoted => if c = m.quote then { r with mode := .closing } else r.push c .quoted
  | .closing => if c = m.quote then r.push c .quoted else r.stepPlain m c

/-- The records once the input has ended. -/
def finish (r : Reader α) : List (List (List α)) :=
  (if r.mode = .record then r else r.endRecord).records.reverse

/-- The records of an input. -/
def readAll (m : Marks α) (input : List α) : List (List (List α)) :=
  (input.foldl (step m) {}).finish

end Reader

/-- The records of a text; a byte order mark before it is dropped. -/
def readText (s : String) : List (List String) :=
  let cs := match s.toList with
    | '\uFEFF' :: cs => cs
    | cs => cs
  (Reader.readAll .chars cs).map fun record => record.map String.ofList

/-- The records of bytes; a byte order mark before them is dropped, and a record is `none` unless all its
fields are well-formed UTF-8. -/
def readBytes (s : Bytes) : List (Option (List String)) :=
  let bytes := match s with
    | 0xEF :: 0xBB :: 0xBF :: s => s
    | s => s
  (Reader.readAll .bytes bytes).map fun record => record.mapM Text.decode?

end Geocoding.Csv
