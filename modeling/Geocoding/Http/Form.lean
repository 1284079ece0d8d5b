import Geocoding.Text.Ascii
import Geocoding.Text.Utf8

/-!
# Form-urlencoded text

Names and values in the query of a request. A byte is kept (ASCII letters, digits and `*-._`), written as
a plus sign (the space), or escaped; so the separators `&` and `=` never stand inside a name or value.
-/

namespace Geocoding.Http.Form

/-- The byte stands for itself. -/
def keeps (b : UInt8) : Bool :=
  let c := Char.ofNat b.toNat
  c.isAlphanum || c == '*' || c == '-' || c == '.' || c == '_'

/-- A byte in the query. -/
def encodeByte (b : UInt8) : List Char :=
  if keeps b then [Char.ofNat b.toNat]
  else if b = 0x20 then ['+']
  else '%' :: (Text.hex 2 b.toNat).map Char.toUpper

/-- A name or value in the query. -/
def encodeText (s : String) : List Char :=
  (Text.encode s).flatMap encodeByte

/-- A name and its value. -/
def encodePair (p : String × String) : List Char :=
  encodeText p.1 ++ '=' :: encodeText p.2

/-- Join encoded pairs by `&`. -/
def joinPairs : List (List Char) → List Char
  | [] => []
  | [p] => p
  | p :: ps => p ++ '&' :: joinPairs ps

/-- Names and values as a query. -/
def encode (pairs : List (String × String)) : List Char :=
  joinPairs (pairs.map encodePair)

/-- The bytes of a name or value as written. -/
def decodeBytes : List Char → Bytes
  | [] => []
  | '+' :: s => 0x20 :: decodeBytes s
  | '%' :: a :: b :: s =>
    match Text.hexValue? a, Text.hexValue? b with
    | some x, some y => UInt8.ofNat (16 * x + y) :: decodeBytes s
    | _, _ => 0x25 :: decodeBytes (a :: b :: s)
  | c :: s => Text.encode (String.singleton c) ++ decodeBytes s

/-- A name or value as meant. -/
def decodeText (s : List Char) : String :=
  Text.decodeLossy (decodeBytes s)

/-- A pair as meant; without `=` it has an empty value. -/
def decodePair (s : List Char) : String × String :=
  match Text.splitAtFirst '=' s with
  | some (name, value) => (decodeText name, decodeText value)
  | none => (decodeText s, "")

/-- The names and values of a query. -/
def decode (s : List Char) : List (String × String) :=
  ((s.splitOn '&').filter (· ≠ [])).map decodePair

end Geocoding.Http.Form
