/-!
# ASCII letters and digits

Names of providers, qualities, statuses and switches are compared without regard to the case of ASCII
letters; all other characters stand for themselves.
-/

namespace Geocoding.Text

/-- Turn the ASCII capitals into small letters. -/
def lowerAscii (s : String) : String :=
  String.ofList (s.toList.map Char.toLower)

/-- The texts agree up to the case of ASCII letters. -/
def eqIgnoringCase (s t : String) : Bool :=
  lowerAscii s == lowerAscii t

/-- The text contains the other one as a block. -/
def hasBlock (pattern : List Char) : List Char → Bool
  | [] => pattern.isEmpty
  | c :: s => pattern.isPrefixOf (c :: s) || hasBlock pattern s

/-- `hasBlock` on strings. -/
def contains (s pattern : String) : Bool :=
  hasBlock pattern.toList s.toList

/-- Cut a text at its first occurrence of a character, which is dropped. -/
def splitAtFirst (c : Char) : List Char → Option (List Char × List Char)
  | [] => none
  | d :: s => if d = c then some ([], s) else (splitAtFirst c s).map fun (a, b) => (d :: a, b)

theorem eq_of_splitAtFirst {c : Char} {s a b : List Char} (h : splitAtFirst c s = some (a, b)) :
    s = a ++ c :: b ∧ c ∉ a := by
  induction s generalizing a with
  | nil => simp [splitAtFirst] at h
  | cons d s ih =>
    unfold splitAtFirst at h
    split at h
    case isTrue hd => simp_all
    case isFalse hd =>
      obtain ⟨⟨a', b'⟩, h', he⟩ := Option.map_eq_some_iff.1 h
      simp only [Prod.mk.injEq] at he
      obtain ⟨rfl, rfl⟩ := he
      obtain ⟨rfl, hn⟩ := ih h'
      exact ⟨rfl, by simp [hn, Ne.symm hd]⟩

theorem splitAtFirst_append {c : Char} {s t : List Char} (h : c ∉ s) :
    splitAtFirst c (s ++ c :: t) = some (s, t) := by
  induction s with
  | nil => simp [splitAtFirst]
  | cons d s ih =>
    rw [List.mem_cons, not_or] at h
    simp [splitAtFirst, Ne.symm h.1, ih h.2]

theorem splitAtFirst_eq_some_iff {c : Char} {s a b : List Char} :
    splitAtFirst c s = some (a, b) ↔ s = a ++ c :: b ∧ c ∉ a := by
  refine ⟨eq_of_splitAtFirst, ?_⟩
  rintro ⟨rfl, hn⟩
  exact splitAtFirst_append hn

/-- The value of an ASCII digit. -/
def digitValue? (c : Char) : Option Nat :=
  if c.isDigit then some (c.toNat - 48) else none

/-- The number that a row of digits denotes, read after `acc`. -/
def ofDigits (acc : Nat) (digits : List Nat) : Nat :=
  digits.foldl (fun n d => 10 * n + d) acc

/-- An unsigned decimal number below `bound`, with an optional plus sign and nothing else. -/
def natBelow? (bound : Nat) (s : String) : Option Nat := do
  let cs := match s.toList with
    | '+' :: cs => cs
    | cs => cs
  if cs.isEmpty then none
  let n := ofDigits 0 (← cs.mapM digitValue?)
  if n < bound then some n else none

/-- The lower-case hexadecimal digit of a number below sixteen. -/
def hexDigit (n : Nat) : Char :=
  if n < 10 then Char.ofNat (48 + n) else Char.ofNat (87 + n)

/-- A number in exactly `width` lower-case hexadecimal digits, the lowest ones kept. -/
def hex (width n : Nat) : List Char :=
  match width with
  | 0 => []
  | width + 1 => hex width (n / 16) ++ [hexDigit (n % 16)]

@[simp] theorem length_hex (width n : Nat) : (hex width n).length = width := by
  induction width generalizing n with
  | zero => rfl
  | succ width ih => simp [hex, ih]

/-- The value of a hexadecimal digit of either case. -/
def hexValue? (c : Char) : Option Nat :=
  let n := c.toNat
  if 48 ≤ n ∧ n ≤ 57 then some (n - 48)
  else if 97 ≤ n ∧ n ≤ 102 then some (n - 87)
  else if 65 ≤ n ∧ n ≤ 70 then some (n - 55)
  else none

end Geocoding.Text
