import Geocoding.Text.Utf8
import Geocoding.Text.Ascii
import Geocoding.Text.Blank

/-!
# Charsets of message bodies

A body is decoded by the charset that its content type names. UTF-8 and windows-1252 are known here, and UTF-8 is
taken for any other. A byte order mark at the start of the body overrides the content type and is dropped.
-/

namespace Geocoding.Text

/-- The charsets that are known. -/
inductive Charset where
  | utf8
  | windows1252
deriving DecidableEq

/-- The characters of windows-1252 for the bytes 0x80 to 0x9F; all others are their own code points. -/
def windows1252High : List Nat := [
  0x20AC, 0x81, 0x201A, 0x192, 0x201E, 0x2026, 0x2020, 0x2021, 0x2C6, 0x2030, 0x160, 0x2039, 0x152, 0x8D,
  0x17D, 0x8F, 0x90, 0x2018, 0x2019, 0x201C, 0x201D, 0x2022, 0x2013, 0x2014, 0x2DC, 0x2122, 0x161, 0x203A,
  0x153, 0x9D, 0x17E, 0x178]

/-- The character of a windows-1252 byte. -/
def windows1252Char (b : UInt8) : Char :=
  let n := b.toNat
  if n < 0x80 then Char.ofNat n else Char.ofNat (windows1252High.getD (n - 0x80) n)

/-- The names of windows-1252, which the labels of ASCII and Latin-1 stand for too. -/
def windows1252Labels : List String := [
  "ansi_x3.4-1968", "ascii", "cp1252", "cp819", "csisolatin1", "ibm819", "iso-8859-1", "iso-ir-100",
  "iso8859-1", "iso88591", "iso_8859-1", "iso_8859-1:1987", "l1", "latin1", "us-ascii", "windows-1252",
  "x-cp1252"]

/-- The charset with that label; UTF-8 for a label that is not known. -/
def Charset.ofLabel (label : String) : Charset :=
  if windows1252Labels.contains (lowerAscii (trim label)) then .windows1252 else .utf8

/-- A parameter value without the double quotes around it. -/
def unquote (s : List Char) : List Char :=
  match s with
  | '"' :: r => r.takeWhile (· != '"')
  | _ => s

/-- The value of the `charset` parameter of a content type. -/
def charsetParameter? (contentType : String) : Option String :=
  (contentType.toList.splitOn ';').tail.findSome? fun parameter =>
    match splitAtFirst '=' parameter with
    | some (name, value) =>
      if lowerAscii (String.ofList (strip name)) = "charset" then
        some (String.ofList (unquote (strip value)))
      else none
    | none => none

/-- The charset that a content type names. -/
def Charset.ofContentType (contentType : String) : Charset :=
  ((charsetParameter? contentType).map Charset.ofLabel).getD .utf8

/-- Decode by a charset. -/
def Charset.decode (charset : Charset) (bytes : Bytes) : String :=
  match charset with
  | .utf8 => decodeLossy bytes
  | .windows1252 => String.ofList (bytes.map windows1252Char)

/-- Pair up the bytes of UTF-16 units; a last odd byte counts as an ill-formed unit. -/
def units16 (bigEndian : Bool) : Bytes → List Nat
  | a :: b :: s =>
    (if bigEndian then a.toNat * 256 + b.toNat else b.toNat * 256 + a.toNat) :: units16 bigEndian s
  | [_] => [0xD800]
  | [] => []

/-- The characters of UTF-16 units, with U+FFFD for every lone surrogate. -/
def decode16 : List Nat → List Char
  | [] => []
  | [u] => [if 0xD800 ≤ u ∧ u < 0xE000 then replacement else Char.ofNat u]
  | u :: v :: s =>
    if 0xD800 ≤ u ∧ u < 0xDC00 ∧ 0xDC00 ≤ v ∧ v < 0xE000 then
      Char.ofNat (0x10000 + (u - 0xD800) * 0x400 + (v - 0xDC00)) :: decode16 s
    else (if 0xD800 ≤ u ∧ u < 0xE000 then replacement else Char.ofNat u) :: decode16 (v :: s)

/-- Decode a body by its byte order mark, or else by its content type. -/
def decodeBody (contentType : String) (body : Bytes) : String :=
  match body with
  | 0xEF :: 0xBB :: 0xBF :: rest => decodeLossy rest
  | 0xFE :: 0xFF :: rest => String.ofList (decode16 (units16 true rest))
  | 0xFF :: 0xFE :: rest => String.ofList (decode16 (units16 false rest))
  | _ => (Charset.ofContentType contentType).decode body

end Geocoding.Text
