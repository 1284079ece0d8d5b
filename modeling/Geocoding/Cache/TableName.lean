import Geocoding.Error
import Geocoding.Text.Blank

/-!
# Names of cache tables

The name of the cache table comes from the configuration and becomes part of SQL text, so only a plain
identifier, or two of them joined by a point, is taken as one.
-/

namespace Geocoding.Cache

/-- An ASCII letter or an underscore. -/
def startsIdentifier (c : Char) : Bool :=
  c.isAlpha || c == '_'

/-- An ASCII letter, a digit or an underscore. -/
def continuesIdentifier (c : Char) : Bool :=
  c.isAlphanum || c == '_'

/-- The greatest length of an identifier. -/
def maxIdentifierLength : Nat := 63

/-- A plain SQL identifier. -/
def isIdentifier : List Char → Bool
  | [] => false
  | c :: s => startsIdentifier c && s.length < maxIdentifierLength && s.all continuesIdentifier

/-- An identifier, or two joined by a point. -/
def isTableName (s : List Char) : Bool :=
  let parts := s.splitOn '.'
  parts.length ≤ 2 && parts.all isIdentifier

/-- The name of a table, with or without a schema before it. -/
structure TableName where
  text : String
  wellFormed : isTableName text.toList = true
deriving DecidableEq

namespace TableName

/-- Read a name, without the blanks around it. -/
def parse (s : String) : Except Error TableName :=
  let name := Text.trim s
  if h : isTableName name.toList = true then .ok ⟨name, h⟩
  else .error (.config (s!"invalid table name '{name}': " ++
    "expected [schema.]table with letters, digits and underscores"))

/-- A name is written as it stands, in statements and in messages. -/
instance : ToString TableName where
  toString := TableName.text

end TableName

end Geocoding.Cache
