/-!
# Writing CSV

One line for each record. A field is put between quotes if it holds a comma, a quote or a line break, and
its quotes are then doubled; so is a lone empty field, which would otherwise leave an empty line.
-/

namespace Geocoding.Csv

/-- The field cannot stand without quotes. -/
def needsQuotes (s : List Char) : Bool :=
  s.any fun c => c == ',' || c == '"' || c == '\r' || c == '\n'

/-- The characters between quotes. -/
def double (s : List Char) : List Char :=
  s.flatMap fun c => if c = '"' then ['"', '"'] else [c]

/-- A field in quotes. -/
def quoteField (s : List Char) : List Char :=
  '"' :: (double s ++ ['"'])

/-- A field, in quotes where needed. -/
def writeField (s : List Char) : List Char :=
  if needsQuotes s then quoteField s else s

/-- Join fields by commas. -/
def joinFields : List (List Char) → List Char
  | [] => []
  | [f] => f
  | f :: fs => f ++ ',' :: joinFields fs

/-- A record and the end of its line. -/
def writeRecord (fields : List String) : List Char :=
  (if fields = [""] then ['"', '"'] else joinFields (fields.map fun f => writeField f.toList)) ++ ['\n']

/-- The text of records. -/
def writeText (records : List (List String)) : String :=
  String.ofList (records.flatMap writeRecord)

end Geocoding.Csv
