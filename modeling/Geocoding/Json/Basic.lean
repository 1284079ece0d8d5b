import Geocoding.Double.Basic
import Geocoding.Text.Ascii
import Geocoding.Text.Utf8

/-!
# JSON values

A value keeps what its reader may still judge: a number keeps its digits, because integers and doubles are
read from them by different rules, and a string that is well-formed but stands for no text (lone
surrogates, ill-formed UTF-8) is kept as such, because it does no harm where it is ignored.
-/

namespace Geocoding

/-- A JSON number as written. -/
structure Json.Number where
  negative : Bool
  whole : List Nat
  fraction : Option (List Nat) := none
  exponent : Option Int := none
deriving DecidableEq

/-- A JSON value; a string or key is `none` if it stands for no text. -/
inductive Json where
  | null
  | bool (b : Bool)
  | number (n : Json.Number)
  | string (s : Option String)
  | array (items : List Json)
  | object (members : List (Option String × Json))

namespace Json

/-- The number of an integer. -/
def Number.ofInt (n : Int) : Number :=
  { negative := n < 0, whole := n.natAbs.repr.toList.map (·.toNat - 48) }

/-- The integer that the number is written as; `3.0`, `1e1` and `-0` are not written as one. -/
def Number.toInt? (n : Number) : Option Int :=
  match n.fraction, n.exponent with
  | none, none =>
    let m := Text.ofDigits 0 n.whole
    if n.negative then if m = 0 then none else some (-m) else some m
  | _, _ => none

/-- The first digits that fit in 64 bits, and how many were left over. -/
def significand (acc : Nat) : List Nat → Nat × Nat
  | [] => (acc, 0)
  | d :: ds => if 10 * acc + d < Nat.pow 2 64 then significand (10 * acc + d) ds else (acc, ds.length + 1)

/-- A power of ten as a double. -/
def powerOfTen (n : Nat) : Double := Double.ofNat (Nat.pow 10 n)

/-- Scale a double by a power of ten, in steps no double is too small for; `none` if the result is out of
range. -/
def scaleByTen (x : Double) (e : Int) : Nat → Option Double
  | 0 => some Double.zero
  | fuel + 1 =>
    if e.natAbs ≤ 308 then
      let y := if 0 ≤ e then x.mulAbs (powerOfTen e.toNat) else x.divAbs (powerOfTen e.natAbs)
      if y.isFinite then some y else none
    else if x.magnitude = 0 then some x
    else if 0 ≤ e then none
    else scaleByTen (x.divAbs (powerOfTen 308)) (e + 308) fuel

/-- The double that a number stands for: its significand, cut to 64 bits and rounded, is scaled by a power
of ten and rounded again. Numbers beyond the largest double have none. -/
def Number.toDouble? (n : Number) : Option Double := do
  let (m, dropped) := significand 0 n.whole
  let fraction := n.fraction.getD []
  let (m, unread) := significand m fraction
  let e : Int := dropped - (fraction.length - unread : Nat) + n.exponent.getD 0
  let x ← if n.fraction.isNone && n.exponent.isNone && dropped == 0 then some (Double.ofNat m)
    else scaleByTen (Double.ofNat m) e 4
  some (if n.negative then x.neg else x)

/-- The bytes of a character. -/
def charBytes (n : Nat) : Bytes := Text.encode (String.singleton (Char.ofNat n))

/-- One step of a string: a byte as it stands, or an escaped UTF-16 unit. -/
inductive Piece where
  | byte (b : UInt8)
  | unit (u : Nat)

/-- The bytes of the pieces, with pairs of surrogates put together; `none` for a lone surrogate. -/
def piecesToBytes? : List Piece → Option Bytes
  | [] => some []
  | .byte b :: ps => (piecesToBytes? ps).map (b :: ·)
  | .unit u :: ps =>
    if u < 0xD800 ∨ 0xE000 ≤ u then (piecesToBytes? ps).map (charBytes u ++ ·)
    else match ps with
      | .unit v :: ps =>
        if u < 0xDC00 ∧ 0xDC00 ≤ v ∧ v < 0xE000 then
          (piecesToBytes? ps).map (charBytes (0x10000 + (u - 0xD800) * 0x400 + (v - 0xDC00)) ++ ·)
        else none
      | _ => none

/-- The text of the pieces. -/
def piecesToText? (ps : List Piece) : Option String :=
  (piecesToBytes? ps).bind Text.decode?

end Json

end Geocoding
