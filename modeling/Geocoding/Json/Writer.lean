import Geocoding.Json.Basic
import Geocoding.Double.Shortest

/-!
# Writing JSON

Compact text, without blanks. In strings only what has to be is escaped: the quote, the backslash and the
control characters.
-/

namespace Geocoding.Json

/-- A character inside a string. -/
def quoteChar (c : Char) : List Char :=
  if c = '"' then ['\\', '"']
  else if c = '\\' then ['\\', '\\']
  else if c = '\x08' then ['\\', 'b']
  else if c = '\x0C' then ['\\', 'f']
  else if c = '\n' then ['\\', 'n']
  else if c = '\r' then ['\\', 'r']
  else if c = '\t' then ['\\', 't']
  else if c.toNat < 0x20 then '\\' :: 'u' :: Text.hex 4 c.toNat
  else [c]

/-- A string in quotes. -/
def quote (s : String) : String :=
  String.ofList ('"' :: (s.toList.flatMap quoteChar ++ ['"']))

/-- The digits of a number. -/
def digitText (ds : List Nat) : String :=
  String.ofList (ds.map fun d => Char.ofNat (48 + d))

/-- A number as it was written, with a lower-case exponent mark. -/
def Number.render (n : Number) : String :=
  (if n.negative then "-" else "") ++ digitText n.whole ++
    (match n.fraction with | some ds => "." ++ digitText ds | none => "") ++
    (match n.exponent with
      | some e => (if e < 0 then "e-" else "e+") ++ e.natAbs.repr
      | none => "")

mutual

/-- The text of a value. -/
def render : Json → String
  | .null => "null"
  | .bool b => if b then "true" else "false"
  | .number n => n.render
  | .string s => quote (s.getD "")
  | .array items => "[" ++ renderItems items ++ "]"
  | .object members => "\x7b" ++ renderMembers members ++ "\x7d"

/-- The texts of items, with commas between them. -/
def renderItems : List Json → String
  | [] => ""
  | [j] => render j
  | j :: js => render j ++ "," ++ renderItems js

/-- The texts of members, with commas between them. -/
def renderMembers : List (Option String × Json) → String
  | [] => ""
  | [(key, j)] => quote (key.getD "") ++ ":" ++ render j
  | (key, j) :: ms => quote (key.getD "") ++ ":" ++ render j ++ "," ++ renderMembers ms

end

/-- An object whose members have their texts already. -/
def objectText (members : List (String × String)) : String :=
  "\x7b" ++ String.intercalate "," (members.map fun (key, text) => quote key ++ ":" ++ text) ++ "\x7d"

end Geocoding.Json
