/-!
# TOML documents

The values of a document, with what has to be known of a table while the document is read: how it came
about decides which later lines may still add to it. `modifyAt` follows a path of keys through the tables
and makes the ones that are missing.
-/

namespace Geocoding

/-- How a table came about. -/
inductive Toml.Form where
  /-- By a header of its own (the document itself counts as one). -/
  | header
  /-- By a longer header, or as a table on the way to one. -/
  | implied
  /-- By a dotted key. -/
  | dotted
  /-- Between braces. -/
  | inline
deriving DecidableEq

/-- A value of a document. Of floats and times only their kind matters here. -/
inductive Toml where
  | string (s : String)
  | integer (n : Int)
  | float
  | bool (b : Bool)
  | datetime
  | array (items : List Toml)
  | table (form : Toml.Form) (entries : List (String × Toml))
  /-- Tables under one header in double brackets. -/
  | tables (items : List Toml)

namespace Toml

/-- Put a value under a key. -/
def put (entries : List (String × Toml)) (key : String) (value : Toml) : List (String × Toml) :=
  match entries with
  | [] => [(key, value)]
  | (k, v) :: rest => if k = key then (key, value) :: rest else (k, v) :: put rest key value

/-- A path leads through a table of that form: a dotted key only through tables that have no header and no
braces, a header through all but those in braces. -/
def Form.passable (dotted : Bool) : Form → Bool
  | header => !dotted
  | implied => true
  | Form.dotted => true
  | inline => false

/-- Change what lies at the end of a path. Tables that are missing on the way are made; `dotted` tells a
dotted key from a header. -/
def modifyAt (dotted : Bool) (f : Toml → Option Toml) : List String → Toml → Option Toml
  | [], t => f t
  | key :: path, .table form entries =>
    match entries.lookup key with
    | none => do
      let made ← modifyAt dotted f path (.table (if dotted then .dotted else .implied) [])
      some (.table form (put entries key made))
    | some (.tables items) => do
      let last ← modifyAt dotted f path (← items.getLast?)
      some (.table form (put entries key (.tables (items.dropLast ++ [last]))))
    | some (.table form' entries') =>
      if form'.passable dotted then do
        let changed ← modifyAt dotted f path (.table form' entries')
        some (.table form (put entries key changed))
      else none
    | some _ => none
  | _ :: _, _ => none

/-- Add an entry to the table itself. -/
def addEntry (key : String) (value : Toml) : Toml → Option Toml
  | .table form entries =>
    if (entries.lookup key).isSome then none else some (.table form (put entries key value))
  | _ => none

/-- The table came about by a dotted key. -/
def isDotted : Toml → Bool
  | .table .dotted _ => true
  | _ => false

/-- Add an entry under a dotted key, given as a path and a last key. A dotted key may only add to a table
that dotted keys have made. -/
def addDotted (path : List String) (key : String) (value : Toml) (t : Toml) : Option Toml :=
  modifyAt true (fun t => if t.isDotted == path.isEmpty then none else addEntry key value t) path t

/-- Open the table of a header. -/
def openTable (key : String) : Toml → Option Toml
  | .table form entries => match entries.lookup key with
    | none => some (.table form (put entries key (.table .header [])))
    | some (.table .implied entries') => some (.table form (put entries key (.table .header entries')))
    | some _ => none
  | _ => none

/-- Open one more table of a header in double brackets. -/
def openNext (key : String) : Toml → Option Toml
  | .table form entries => match entries.lookup key with
    | none => some (.table form (put entries key (.tables [.table .header []])))
    | some (.tables items) => some (.table form (put entries key (.tables (items ++ [.table .header []]))))
    | some _ => none
  | _ => none

end Toml

end Geocoding
