import Geocoding.Text.Lowercase.Table
import Geocoding.Text.Ranges

/-!
# Lower case

Full Unicode lower-casing of a text. Every character is mapped on its own, except the capital sigma: at
the end of a word (a letter before it and none after it, characters that do not count as part of the
spelling skipped) it becomes the final form `ς`, elsewhere `σ`.
-/

namespace Geocoding.Text

/-- The character is looked past when a sigma searches its neighbours. -/
def isCaseIgnorable (c : Char) : Bool :=
  inRanges ignorableRanges c.toNat

/-- The character is a letter with case for the neighbours of a sigma. -/
def isCased (c : Char) : Bool :=
  inRanges casedRanges c.toNat

/-- The run covers the code point. -/
def LowerRun.covers (r : LowerRun) (n : Nat) : Bool :=
  r.first ≤ n && n ≤ r.last && (n - r.first) % r.step == 0

/-- The lower case of a character on its own. -/
def lowerChar (c : Char) : List Char :=
  if c = '\u0130' then ['i', '\u0307']
  else if c.toNat < 0x80 then [c.toLower]
  else match lowerRuns.find? (·.covers c.toNat) with
    | some r => [Char.ofNat (r.image + (c.toNat - r.first))]
    | none => [c]

/-- The next character that is not skipped is a letter with case. -/
def meetsCased (s : List Char) : Bool :=
  match s.dropWhile isCaseIgnorable with
  | c :: _ => isCased c
  | [] => false

/-- The lower case of a sigma between the (reversed) text before it and the text after it. -/
def lowerSigma (before after : List Char) : Char :=
  if meetsCased before && !meetsCased after then 'ς' else 'σ'

/-- Lower-case the rest of a text, given what stood before it, last character first. -/
def lowerAfter (before : List Char) : List Char → List Char
  | [] => []
  | c :: s =>
    (if c = 'Σ' then [lowerSigma before s] else lowerChar c) ++ lowerAfter (c :: before) s

/-- The lower case of a text. -/
def lower (s : String) : String :=
  String.ofList (lowerAfter [] s.toList)

end Geocoding.Text
