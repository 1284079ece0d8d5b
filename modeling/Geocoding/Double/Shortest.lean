import Geocoding.Double.Basic
import Geocoding.Text.Ascii

/-!
# Shortest decimal text of doubles

The digits of a finite double are the fewest that read back as the same double, and the nearest to it of
those. They are found by trying one digit, two, and so on, with the two neighbours of the double on that
decimal grid. Two notations use them: `jsonText`, with an exponent for very large and very small numbers,
and `plainText`, which never has one.
-/

namespace Geocoding.Double

/-- The doubles that round to a given one: an interval of ratios over a common denominator. -/
structure Interval where
  low : Nat
  value : Nat
  high : Nat
  denominator : Nat
  closed : Bool

/-- The numbers that round to `m * 2 ^ q`, where `m` and `q` come from `decompose`. -/
def interval (m : Nat) (q : Int) : Interval :=
  let lowerGap := if m = Nat.pow 2 52 ∧ -1074 < q then 1 else 2
  let (num, den) := scale 1 4 q
  ⟨num * (4 * m - lowerGap), num * (4 * m), num * (4 * m + 2), den, m % 2 = 0⟩

/-- The number `d * 10 ^ e` lies in the interval. -/
def Interval.holds (i : Interval) (d : Nat) (e : Int) : Bool :=
  let a := d * Nat.pow 10 e.toNat * i.denominator
  let t := Nat.pow 10 (-e).toNat
  if i.closed then i.low * t ≤ a && a ≤ i.high * t else i.low * t < a && a < i.high * t

/-- What to do with a value halfway between two candidates. -/
inductive Tie where
  | toEven
  | up
deriving DecidableEq

/-- The candidate with steps of `10 ^ e` that reads back, the nearer one of two. -/
def Interval.candidate? (i : Interval) (tie : Tie) (e : Int) : Option Nat :=
  let n := i.value * Nat.pow 10 (-e).toNat
  let step := i.denominator * Nat.pow 10 e.toNat
  let d := n / step
  let r := n % step
  match i.holds d e, i.holds (d + 1) e with
  | true, false => some d
  | false, true => some (d + 1)
  | false, false => none
  | true, true =>
    if 2 * r < step then some d else if step < 2 * r then some (d + 1)
    else match tie with
      | .toEven => some (d + d % 2)
      | .up => some (d + 1)

/-- Try ever finer grids, up to seventeen digits. -/
def Interval.search (i : Interval) (tie : Tie) (e : Int) : Nat → Nat × Int
  | 0 => (i.value / i.denominator, 0)
  | fuel + 1 => match i.candidate? tie e with
    | some d => (d, e)
    | none => i.search tie (e - 1) fuel

/-- The number of decimal digits of a positive ratio before its point: `k` with
`10 ^ (k - 1) ≤ n / d < 10 ^ k`, searched upwards. -/
def decimalSize (n d : Nat) : Int :=
  go (-330) 660
where
  /-- The first exponent from `k` on that exceeds the ratio. -/
  go (k : Int) : Nat → Int
    | 0 => k
    | fuel + 1 => if n * Nat.pow 10 (-k).toNat < d * Nat.pow 10 k.toNat then k else go (k + 1) fuel

/-- Drop the zeros at the end of a decimal number. -/
def dropZeros (d : Nat) (e : Int) : Nat → Nat × Int
  | 0 => (d, e)
  | fuel + 1 => if d ≠ 0 ∧ d % 10 = 0 then dropZeros (d / 10) (e + 1) fuel else (d, e)

/-- The shortest digits `d` and exponent `e` of a finite double other than zero: `d * 10 ^ e` reads back
as its absolute value. -/
def shortest (tie : Tie) (x : Double) : Nat × Int :=
  let (m, q) := x.decompose
  let i := interval m q
  let (d, e) := i.search tie (decimalSize i.value i.denominator - 1) 17
  dropZeros d e 20

/-- Digits with the point after the first `point` of them, filled up with zeros; `tail` stands for an
empty fraction. -/
def positional (digits : List Char) (point : Int) (tail : String) : String :=
  let n : Int := digits.length
  if n ≤ point then
    String.ofList (digits ++ List.replicate (point - n).toNat '0') ++ tail
  else if 0 < point then
    String.ofList (digits.take point.toNat ++ '.' :: digits.drop point.toNat)
  else
    String.ofList ('0' :: '.' :: (List.replicate (-point).toNat '0' ++ digits))

/-- One digit, a point if more digits follow, and an exponent with its sign. -/
def scientific (digits : List Char) (exponent : Int) : String :=
  let mantissa := match digits with
    | [d] => [d]
    | d :: ds => d :: '.' :: ds
    | [] => []
  let mark := if exponent < 0 then "e-" else "e+"
  String.ofList mantissa ++ mark ++ exponent.natAbs.repr

/-- The sign of a number that is written. -/
def signText (x : Double) : String :=
  if x.negative then "-" else ""

/-- The number in JSON: with at least one place from 1e-5 up to below 1e16 (and for zero), beyond with an
exponent; `null` if it is not finite. -/
def jsonText (x : Double) : String :=
  if !x.isFinite then "null"
  else if x.magnitude = 0 then x.signText ++ "0.0"
  else
    let (d, e) := x.shortest .toEven
    let digits := d.repr.toList
    let point : Int := digits.length + e
    if -5 < point ∧ point ≤ 16 then x.signText ++ positional digits point ".0"
    else x.signText ++ scientific digits (point - 1)

/-- The number in full, without an exponent and without places that are not needed. -/
def plainText (x : Double) : String :=
  if x.isNaN then "NaN"
  else if !x.isFinite then x.signText ++ "inf"
  else if x.magnitude = 0 then x.signText ++ "0"
  else
    let (d, e) := x.shortest .up
    let digits := d.repr.toList
    x.signText ++ positional digits (digits.length + e) ""

/-- The bits in sixteen hexadecimal digits; every NaN is the same. -/
def hexText (x : Double) : String :=
  if x.isNaN then "NaN" else String.ofList (Text.hex 16 x.bits.toNat)

end Geocoding.Double
