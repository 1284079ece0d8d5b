import Geocoding.Double.Basic
import Geocoding.Text.Ascii

/-!
# Reading doubles

The decimal notation of coordinates in tables and options: an optional sign, then digits with an optional
point (`5.` and `.5` both count) and an optional exponent, or a name of an infinity or of NaN in any case.
The result is the nearest double.
-/

namespace Geocoding.Double

/-- Digits from the front of a text, and the rest. -/
def spanDigits (s : List Char) : List Nat × List Char :=
  ((s.takeWhile Char.isDigit).map (·.toNat - 48), s.dropWhile Char.isDigit)

/-- Take a sign from the front. -/
def spanSign : List Char → Bool × List Char
  | '-' :: s => (true, s)
  | '+' :: s => (false, s)
  | s => (false, s)

/-- An exponent part, which may be missing, and nothing after it. -/
def exponent? : List Char → Option Int
  | [] => some 0
  | c :: s =>
    if c = 'e' ∨ c = 'E' then
      let (negative, s) := spanSign s
      match spanDigits s with
      | ([], _) => none
      | (digits, []) =>
        let n : Int := Text.ofDigits 0 digits
        some (if negative then -n else n)
      | (_, _ :: _) => none
    else none

/-- An unsigned decimal number. -/
def decimal? (negative : Bool) (s : List Char) : Option Double := do
  let (whole, s) := spanDigits s
  let (fraction, s) := match s with
    | '.' :: s => spanDigits s
    | s => ([], s)
  if whole.isEmpty && fraction.isEmpty then none
  let e ← exponent? s
  some (ofScientific negative (Text.ofDigits 0 (whole ++ fraction)) (e - fraction.length))

/-- The double that a text denotes. -/
def read? (s : String) : Option Double :=
  let (negative, rest) := spanSign s.toList
  match Text.lowerAscii (String.ofList rest) with
  | "inf" | "infinity" => some (infinity negative)
  | "nan" => some nan
  | _ => decimal? negative rest

end Geocoding.Double
