import Geocoding.Address.Basic
import Geocoding.Csv.Reader

/-!
# Tables of addresses

Addresses from a CSV file whose first record names the columns. Fields and names of columns are trimmed;
unknown columns are ignored, and a column that is missing is blank in every row. A row is refused if it is
shorter than the header, if it is not UTF-8, or if two of its columns have the same meaning. If the header
is not UTF-8, it is skipped and the columns are taken in their usual order.
-/

namespace Geocoding.Address

/-- The columns, in their usual order, each with its names. -/
def columns : List (List String) :=
  [["id"], ["street"], ["city"], ["state"], ["zip_code", "zip"]]

/-- An address of the values of the columns. -/
def ofColumns : List String → Option Address
  | [id, street, city, state, zip] => some { id, street, city, state, zip }
  | _ => none

/-- The only field of a row in a column with one of the names, blank if there is no such column. -/
def field? (header row : List String) (names : List String) : Option String :=
  match (header.zip row).filter fun (name, _) => names.contains name with
  | [] => some ""
  | [(_, text)] => some text
  | _ => none

/-- Read a row under a header; both are trimmed already. -/
def ofRow? (header : Option (List String)) (row : List String) : Option Address :=
  match header with
  | some header =>
    if row.length < header.length then none
    else (columns.mapM (field? header row)).bind ofColumns
  | none => ofColumns (columns.mapIdx fun i _ => row[i]?.getD "")

/-- Trim the fields of a record. -/
def trimRecord (record : List String) : List String :=
  record.map Text.trim

/-- Read rows, of which the first has the number `n`; the number of the first row that is refused is
reported. -/
def ofRows (header : Option (List String)) (n : Nat) :
    List (Option (List String)) → Except Nat (List Address)
  | [] => .ok []
  | row :: rows => match row.bind fun row => ofRow? header (trimRecord row) with
    | some a => (ofRows header (n + 1) rows).map (a :: ·)
    | none => .error n

/-- Read a table; the first row after the header is the row 1. -/
def readTable (file : Bytes) : Except Nat (List Address) :=
  match Csv.readBytes file with
  | [] => .ok []
  | header :: rows => ofRows (header.map trimRecord) 1 rows

end Geocoding.Address
