/-!
# Blank characters

The characters with the Unicode property White_Space, and trimming by that property. `Char.isWhitespace`
knows four of them only; user text (addresses, table names, configuration values) is trimmed by all 25.
-/

namespace Geocoding.Text

/-- The character has the Unicode property White_Space. -/
def isBlank (c : Char) : Bool :=
  let n := c.toNat
  (9 ≤ n && n ≤ 13) || n == 0x20 || n == 0x85 || n == 0xA0 || n == 0x1680 ||
  (0x2000 ≤ n && n ≤ 0x200A) || n == 0x2028 || n == 0x2029 || n == 0x202F || n == 0x205F || n == 0x3000

/-- Drop the characters at the end that satisfy `p`. -/
def dropEnd (p : Char → Bool) (s : List Char) : List Char :=
  (s.reverse.dropWhile p).reverse

/-- Drop the blank characters at both ends. -/
def strip (s : List Char) : List Char :=
  dropEnd isBlank (s.dropWhile isBlank)

/-- `strip` on strings. -/
def trim (s : String) : String :=
  String.ofList (strip s.toList)

/-- Drop the blank characters at the end. -/
def trimEnd (s : String) : String :=
  String.ofList (dropEnd isBlank s.toList)

/-- The text holds no character other than blanks. -/
def isBlankText (s : String) : Bool :=
  s.toList.all isBlank

theorem dropWhile_eq_nil_iff_all {p : Char → Bool} {s : List Char} :
    s.dropWhile p = [] ↔ s.all p = true := by
  induction s with
  | nil => simp
  | cons c s ih => cases h : p c <;> simp_all [List.dropWhile]

theorem all_of_all_dropWhile {p : Char → Bool} {s : List Char} (h : (s.dropWhile p).all p = true) :
    s.all p = true := by
  induction s with
  | nil => rfl
  | cons c s ih => cases hc : p c <;> simp_all [List.dropWhile]

theorem strip_eq_nil_iff {s : List Char} : strip s = [] ↔ s.all isBlank = true := by
  rw [strip, dropEnd, List.reverse_eq_nil_iff, dropWhile_eq_nil_iff_all, List.all_reverse]
  refine ⟨all_of_all_dropWhile, fun h => ?_⟩
  rw [dropWhile_eq_nil_iff_all.2 h]; rfl

theorem trim_eq_empty_iff {s : String} : trim s = "" ↔ isBlankText s = true := by
  rw [isBlankText, ← strip_eq_nil_iff]
  exact ⟨fun h => by simpa [trim] using congrArg String.toList h, fun h => by rw [trim, h]⟩

theorem mem_dropWhile {p : Char → Bool} {s : List Char} {c : Char} (h : c ∈ s) (hp : p c = false) :
    c ∈ s.dropWhile p := by
  induction s with
  | nil => exact h
  | cons d s ih => cases hd : p d <;> simp_all [List.dropWhile]; rcases h with rfl | h <;> simp_all

theorem mem_strip {s : List Char} {c : Char} (h : c ∈ s) (hc : isBlank c = false) : c ∈ strip s := by
  rw [strip, dropEnd, List.mem_reverse]
  exact mem_dropWhile (List.mem_reverse.2 (mem_dropWhile h hc)) hc

end Geocoding.Text
