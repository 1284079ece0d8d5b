/-!
# UTF-8

Encoding is the standard library's. Decoding comes in two forms: `decode?` refuses ill-formed bytes,
`decodeLossy` puts U+FFFD in the place of every ill-formed part, where a part is as long as it could
still have become a character.
-/

namespace Geocoding

/-- Bytes as they travel. -/
abbrev Bytes := List UInt8

namespace Text

/-- The UTF-8 bytes of a text. -/
def encode (s : String) : Bytes :=
  s.toUTF8.data.toList

/-- The text that the bytes encode, if they are well-formed. -/
def decode? (bytes : Bytes) : Option String :=
  String.fromUTF8? ⟨bytes.toArray⟩

/-- A character that has begun: how many bytes it still needs, the range of the next one, and the bits
read so far. -/
structure Partial where
  missing : Nat
  low : Nat
  high : Nat
  bits : Nat

/-- What a byte does at the start of a character: it is one, begins one, or is out of place. -/
inductive Lead where
  | char (c : Char)
  | begins (p : Partial)
  | bad

/-- Classify the first byte of a character. -/
def lead (b : Nat) : Lead :=
  if b < 0x80 then .char (Char.ofNat b)
  else if b < 0xC2 then .bad
  else if b < 0xE0 then .begins ⟨1, 0x80, 0xBF, b % 0x20⟩
  else if b < 0xF0 then
    .begins ⟨2, if b = 0xE0 then 0xA0 else 0x80, if b = 0xED then 0x9F else 0xBF, b % 0x10⟩
  else if b < 0xF5 then
    .begins ⟨3, if b = 0xF0 then 0x90 else 0x80, if b = 0xF4 then 0x8F else 0xBF, b % 0x08⟩
  else .bad

/-- A decoder in the middle of its input: the character that has begun, and what was read so far, last
first. -/
structure Decoder where
  pending : Option Partial := none
  read : List Char := []

/-- The mark of an ill-formed part. -/
def replacement : Char := '\uFFFD'

/-- Read a byte between two characters. -/
def Decoder.begin (read : List Char) (b : Nat) : Decoder :=
  match lead b with
  | .char c => ⟨none, c :: read⟩
  | .begins p => ⟨some p, read⟩
  | .bad => ⟨none, replacement :: read⟩

/-- Read one byte. -/
def Decoder.step (d : Decoder) (byte : UInt8) : Decoder :=
  let b := byte.toNat
  match d.pending with
  | none => .begin d.read b
  | some p =>
    if p.low ≤ b ∧ b ≤ p.high then
      let bits := p.bits * 64 + b % 64
      if p.missing ≤ 1 then ⟨none, Char.ofNat bits :: d.read⟩
      else ⟨some ⟨p.missing - 1, 0x80, 0xBF, bits⟩, d.read⟩
    else .begin (replacement :: d.read) b

/-- The text read once the input has ended. -/
def Decoder.finish (d : Decoder) : List Char :=
  (if d.pending.isSome then replacement :: d.read else d.read).reverse

/-- The text of the bytes, with U+FFFD for every ill-formed part. -/
def decodeLossy (bytes : Bytes) : String :=
  String.ofList (bytes.foldl Decoder.step {}).finish

end Text

end Geocoding
