/-!
# Doubles

IEEE 754 binary64 numbers, held as their 64 bits. Coordinates are read, compared, stored and written, but
never calculated with, so the bits are all that is needed, and equality of coordinates is decidable and
exact: it tells the two zeros apart. Rounding an exact ratio to the nearest double is done in natural
numbers. Powers are written `Nat.pow`, so that they mean the same under every notion of power in scope.
-/

namespace Geocoding

/-- An IEEE 754 binary64 number. -/
structure Double where
  bits : UInt64
deriving DecidableEq, Repr

namespace Double

/-- The sign bit is set. -/
def negative (x : Double) : Bool :=
  Nat.pow 2 63 ≤ x.bits.toNat

/-- The bits below the sign, which grow with the absolute value. -/
def magnitude (x : Double) : Nat :=
  x.bits.toNat % Nat.pow 2 63

/-- The magnitude of infinity: every exponent bit and no other. -/
def infinite : Nat := 2047 * Nat.pow 2 52

/-- The double with a sign and a magnitude. -/
def ofMagnitude (negative : Bool) (magnitude : Nat) : Double :=
  ⟨UInt64.ofNat (if negative then Nat.pow 2 63 + magnitude else magnitude)⟩

/-- Positive zero. -/
def zero : Double := ofMagnitude false 0

/-- An infinity. -/
def infinity (negative : Bool) : Double := ofMagnitude negative infinite

/-- A number that is not one. -/
def nan : Double := ofMagnitude false (infinite + Nat.pow 2 51)

instance : Inhabited Double := ⟨zero⟩

/-- Not a number. -/
def isNaN (x : Double) : Bool :=
  infinite < x.magnitude

/-- Neither an infinity nor NaN. -/
def isFinite (x : Double) : Bool :=
  x.magnitude < infinite

/-- The order of the doubles other than NaN; the two zeros are equal in it. -/
def order? (x : Double) : Option Int :=
  if x.isNaN then none else some (if x.negative then -x.magnitude else x.magnitude)

/-- The comparison of IEEE 754: false when either side is NaN. -/
def le (x y : Double) : Bool :=
  match x.order?, y.order? with
  | some a, some b => a ≤ b
  | _, _ => false

/-- The bounds enclose the number, both included. -/
def between (x low high : Double) : Bool :=
  low.le x && x.le high

/-- A finite double as an integer and a power of two: its absolute value is `m * 2 ^ q`. -/
def decompose (x : Double) : Nat × Int :=
  let exponent : Nat := x.magnitude / Nat.pow 2 52
  let fraction : Nat := x.magnitude % Nat.pow 2 52
  if exponent = 0 then (fraction, -1074) else (Nat.pow 2 52 + fraction, (exponent : Int) - 1075)

/-- The integer nearest to `n / d`, the even one of two. -/
def roundDiv (n d : Nat) : Nat :=
  let q := n / d
  let r := n % d
  if 2 * r < d then q else if d < 2 * r then q + 1 else q + q % 2

/-- A ratio times a power of two, as a ratio. -/
def scale (n d : Nat) (e : Int) : Nat × Nat :=
  if 0 ≤ e then (n * Nat.pow 2 e.toNat, d) else (n, d * Nat.pow 2 (-e).toNat)

/-- The exponent of the highest power of two that does not exceed `n / d`, both positive. -/
def floorLog2 (n d : Nat) : Int :=
  let k : Int := (Nat.log2 n : Int) - (Nat.log2 d : Int)
  let (n', d') := scale n d (-k)
  if d' ≤ n' then k else k - 1

/-- The double nearest to `n / d`, the even one of two; from halfway past the largest one on, infinity. -/
def ofRatio (negative : Bool) (n d : Nat) : Double :=
  if n = 0 then ofMagnitude negative 0 else
  let e := max (floorLog2 n d - 52) (-1074)
  let (n', d') := scale n d (-e)
  ofMagnitude negative (min infinite ((e + 1074).toNat * Nat.pow 2 52 + roundDiv n' d'))

/-- The double nearest to a natural number. -/
def ofNat (n : Nat) : Double := ofRatio false n 1

/-- The other sign. -/
def neg (x : Double) : Double :=
  ofMagnitude (!x.negative) x.magnitude

/-- A finite double as a ratio of natural numbers, without its sign. -/
def ratio (x : Double) : Nat × Nat :=
  let (m, q) := x.decompose
  scale m 1 q

/-- The product, rounded, of the absolute values of finite doubles. -/
def mulAbs (x y : Double) : Double :=
  let (a, b) := x.ratio
  let (c, d) := y.ratio
  ofRatio false (a * c) (b * d)

/-- The quotient, rounded, of the absolute values of finite doubles, the divisor not zero. -/
def divAbs (x y : Double) : Double :=
  let (a, b) := x.ratio
  let (c, d) := y.ratio
  ofRatio false (a * d) (b * c)

/-- The double nearest to `m * 10 ^ e`. Exponents that lead far out of range are not computed with: powers of two
are told from powers of ten by `10 ^ 3 < 2 ^ 10` and `2 ^ 100 < 10 ^ 31`. -/
def ofScientific (negative : Bool) (m : Nat) (e : Int) : Double :=
  let size : Int := Nat.log2 m
  if m = 0 ∨ (size + 1) * 31 / 100 + e < -400 then ofMagnitude negative 0
  else if 400 < size * 3 / 10 + e then infinity negative
  else if 0 ≤ e then ofRatio negative (m * Nat.pow 10 e.toNat) 1
  else ofRatio negative m (Nat.pow 10 (-e).toNat)

end Double

end Geocoding
