import Geocoding.Double.Read
import Geocoding.Proofs.Double.Rounding
import Mathlib.Tactic.SplitIfs

/-!
# Texts that are read as doubles

A text is read as a double if it is a decimal number, or a name of an infinity or of NaN. Names are read as what
they say and decimal numbers as the double nearest to them, which is finite unless they lie beyond all doubles.
-/

namespace Geocoding.Double

/-- The text consists of decimal digits. -/
def AllDigits (s : List Char) : Prop :=
  ∀ c ∈ s, c.isDigit = true

/-- The number that digits denote. -/
def digitsValue (s : List Char) : Nat :=
  Text.ofDigits 0 (s.map (·.toNat - 48))

/-- A decimal number: its sign, the digits before and behind its point, and its exponent of ten. -/
structure Decimal where
  negative : Bool
  whole : List Char
  fraction : List Char
  exponent : Int

namespace Decimal

/-- The number without its sign. -/
def size (n : Decimal) : ℚ :=
  digitsValue (n.whole ++ n.fraction) * 10 ^ (n.exponent - n.fraction.length)

/-- The double nearest to the number. -/
def nearest (n : Decimal) : Double :=
  ofScientific n.negative (digitsValue (n.whole ++ n.fraction)) (n.exponent - n.fraction.length)

end Decimal

/-- Ways to write a sign. -/
inductive SignText : Bool → List Char → Prop
  | none : SignText false []
  | plus : SignText false ['+']
  | minus : SignText true ['-']

/-- Ways to write the digits behind a point. -/
inductive FractionText : List Char → List Char → Prop
  | none : FractionText [] []
  | point {digits : List Char} (hdigits : AllDigits digits) : FractionText digits ('.' :: digits)

/-- Ways to write an exponent. -/
inductive ExponentText : Int → List Char → Prop
  | none : ExponentText 0 []
  | mark {c : Char} {negative : Bool} {sign digits : List Char} (hc : c = 'e' ∨ c = 'E')
      (hsign : SignText negative sign) (hdigits : AllDigits digits) (hne : digits ≠ []) :
      ExponentText (if negative then -(digitsValue digits : Int) else digitsValue digits) (c :: (sign ++ digits))

/-- The text without its sign is that of the number: there are digits before its point or behind it. -/
structure Decimal.Follows (n : Decimal) (s : List Char) : Prop where
  whole : AllDigits n.whole
  some_digit : n.whole = [] → n.fraction ≠ []
  text : ∃ fraction exponent, FractionText n.fraction fraction ∧ ExponentText n.exponent exponent ∧
    s = n.whole ++ (fraction ++ exponent)

/-- The text is that of the number. -/
def Decimal.WrittenAs (n : Decimal) (s : List Char) : Prop :=
  ∃ sign rest, SignText n.negative sign ∧ n.Follows rest ∧ s = sign ++ rest

/-- The text is a name of an infinity or of NaN, in letters of any case. -/
inductive NamedAs : Double → List Char → Prop
  | infinity {negative : Bool} {sign name : List Char} (hsign : SignText negative sign)
      (hname : Text.lowerAscii (String.ofList name) ∈ ["inf", "infinity"]) :
      NamedAs (infinity negative) (sign ++ name)
  | nan {negative : Bool} {sign name : List Char} (hsign : SignText negative sign)
      (hname : Text.lowerAscii (String.ofList name) = "nan") : NamedAs nan (sign ++ name)

/-! ## Signs and digits -/

section Parts

variable {s digits rest : List Char} {negative : Bool}

theorem spanSign_spec (s : List Char) : ∃ sign, SignText (spanSign s).1 sign ∧ s = sign ++ (spanSign s).2 := by
  unfold spanSign
  split
  · exact ⟨_, .minus, rfl⟩
  · exact ⟨_, .plus, rfl⟩
  · exact ⟨_, .none, rfl⟩

/-- A text that starts with no sign. -/
def Unsigned (s : List Char) : Prop :=
  s.head? ≠ some '-' ∧ s.head? ≠ some '+'

theorem spanSign_append {sign : List Char} (hsign : SignText negative sign) (hs : Unsigned s) :
    spanSign (sign ++ s) = (negative, s) := by
  cases hsign with
  | none =>
    unfold spanSign
    rw [List.nil_append]
    split
    · exact absurd rfl hs.1
    · exact absurd rfl hs.2
    · rfl
  | plus => rfl
  | minus => rfl

/-- What stands behind digits does not continue them. -/
def EndsDigits (rest : List Char) : Prop :=
  ∀ c, rest.head? = some c → c.isDigit = false

theorem spanDigits_append (hdigits : AllDigits digits) (hrest : EndsDigits rest) :
    spanDigits (digits ++ rest) = (digits.map (·.toNat - 48), rest) := by
  have hnone : rest.takeWhile Char.isDigit = [] ∧ rest.dropWhile Char.isDigit = rest := by
    cases rest with
    | nil => exact ⟨rfl, rfl⟩
    | cons c rest => simp [hrest c rfl]
  rw [spanDigits, List.takeWhile_append_of_pos hdigits, List.dropWhile_append_of_pos hdigits, hnone.1, hnone.2,
    List.append_nil]

/-- Every text splits into digits and a rest that does not continue them. -/
theorem exists_digits (s : List Char) : ∃ digits rest, AllDigits digits ∧ EndsDigits rest ∧ s = digits ++ rest := by
  refine ⟨s.takeWhile Char.isDigit, s.dropWhile Char.isDigit, List.all_eq_true.1 List.all_takeWhile, ?_,
    List.takeWhile_append_dropWhile.symm⟩
  intro c hc
  have hhead := List.head?_dropWhile_not Char.isDigit s
  rw [hc] at hhead
  exact hhead

theorem AllDigits.unsigned (hdigits : AllDigits digits) : Unsigned digits := by
  constructor <;> intro hhead <;> exact absurd (hdigits _ (List.mem_of_mem_head? hhead)) (by decide)

end Parts

/-! ## Exponents -/

theorem exponent?_cons (c : Char) (s : List Char) :
    exponent? (c :: s) = if c = 'e' ∨ c = 'E' then
      match spanDigits (spanSign s).2 with
      | ([], _) => none
      | (digits, []) => some (if (spanSign s).1 then -(Text.ofDigits 0 digits : Int) else Text.ofDigits 0 digits)
      | (_, _ :: _) => none
    else none := rfl

theorem exponent?_eq_some_iff {s : List Char} {e : Int} : exponent? s = some e ↔ ExponentText e s := by
  constructor
  · intro h
    cases s with
    | nil =>
      cases h
      exact .none
    | cons c s =>
      obtain ⟨sign, hsign, hs⟩ := spanSign_spec s
      obtain ⟨digits, rest, hdigits, hrest, hspan⟩ := exists_digits (spanSign s).2
      rw [exponent?_cons, hspan, spanDigits_append hdigits hrest] at h
      rw [hspan] at hs
      generalize (spanSign s).1 = negative at h hsign
      split at h
      next hc =>
        cases digits with
        | nil => cases h
        | cons d digits => cases rest with
          | cons => cases h
          | nil =>
            cases h
            rw [hs, List.append_nil]
            exact .mark hc hsign hdigits (List.cons_ne_nil _ _)
      next => cases h
  · rintro (_ | @⟨c, negative, sign, digits, hc, hsign, hdigits, hne⟩)
    · rfl
    · have hspan : spanDigits (digits ++ []) = _ := spanDigits_append hdigits (by simp [EndsDigits])
      rw [List.append_nil] at hspan
      rw [exponent?_cons, if_pos hc, spanSign_append hsign hdigits.unsigned, hspan]
      cases digits with
      | nil => exact absurd rfl hne
      | cons => rfl

/-- An exponent starts with its mark. -/
theorem ExponentText.head? {s : List Char} {e : Int} (h : ExponentText e s) {c : Char} (hc : s.head? = some c) :
    c = 'e' ∨ c = 'E' := by
  cases h with
  | none => cases hc
  | mark hmark =>
    cases hc
    exact hmark

/-! ## Decimal numbers -/

/-- What stands behind the digits of a number does not continue them: neither a digit, nor a point where there has
been none. -/
structure EndsNumber (fraction rest : List Char) : Prop where
  digits : EndsDigits rest
  point : fraction = [] → rest.head? ≠ some '.'

theorem ExponentText.endsNumber {s : List Char} {e : Int} (h : ExponentText e s) (fraction : List Char) :
    EndsNumber fraction s where
  digits c hc := by obtain rfl | rfl := h.head? hc <;> rfl
  point _ hpoint := by obtain hc | hc := h.head? hpoint <;> exact absurd hc (by decide)

/-- Every text splits into the digits of a number and a rest that does not continue them. -/
theorem exists_number_text (s : List Char) : ∃ whole digits fraction rest, AllDigits whole ∧
    FractionText digits fraction ∧ EndsNumber fraction rest ∧ s = whole ++ (fraction ++ rest) := by
  obtain ⟨whole, behind, hwhole, hbehind, rfl⟩ := exists_digits s
  by_cases hpoint : behind.head? = some '.'
  · obtain ⟨tail, rfl⟩ := List.head?_eq_some_iff.1 hpoint
    obtain ⟨digits, rest, hdigits, hrest, rfl⟩ := exists_digits tail
    exact ⟨whole, digits, _, rest, hwhole, .point hdigits, ⟨hrest, fun h => absurd h (List.cons_ne_nil _ _)⟩, rfl⟩
  · exact ⟨whole, [], [], behind, hwhole, .none, ⟨hbehind, fun _ => hpoint⟩, rfl⟩

/-- The digits behind a point, if there is one, and the rest. -/
def spanFraction : List Char → List Nat × List Char
  | '.' :: s => spanDigits s
  | s => ([], s)

theorem spanFraction_append {digits fraction rest : List Char} (hfraction : FractionText digits fraction)
    (hrest : EndsNumber fraction rest) :
    spanFraction (fraction ++ rest) = (digits.map (·.toNat - 48), rest) := by
  cases hfraction with
  | point hdigits => exact spanDigits_append hdigits hrest.digits
  | none =>
    have hnone := hrest.point rfl
    unfold spanFraction
    rw [List.nil_append]
    split
    · exact absurd rfl hnone
    · rfl

theorem decimal?_eq (negative : Bool) (s : List Char) :
    decimal? negative s =
      if (spanDigits s).1.isEmpty && (spanFraction (spanDigits s).2).1.isEmpty then none
      else (exponent? (spanFraction (spanDigits s).2).2).bind fun e =>
        some (ofScientific negative (Text.ofDigits 0 ((spanDigits s).1 ++ (spanFraction (spanDigits s).2).1))
          (e - (spanFraction (spanDigits s).2).1.length)) := rfl

theorem decimal?_append {whole digits fraction rest : List Char} (hwhole : AllDigits whole)
    (hfraction : FractionText digits fraction) (hrest : EndsNumber fraction rest) (negative : Bool) :
    decimal? negative (whole ++ (fraction ++ rest)) =
      if whole = [] ∧ digits = [] then none
      else (exponent? rest).map fun exponent => Decimal.nearest ⟨negative, whole, digits, exponent⟩ := by
  have hends : EndsDigits (fraction ++ rest) := by
    cases hfraction with
    | none => exact hrest.digits
    | point =>
      rintro _ ⟨⟩
      rfl
  rw [decimal?_eq, spanDigits_append hwhole hends, spanFraction_append hfraction hrest]
  cases exponent? rest <;> simp [Decimal.nearest, digitsValue]

theorem decimal?_eq_some_iff {negative : Bool} {s : List Char} {x : Double} :
    decimal? negative s = some x ↔ ∃ n : Decimal, n.negative = negative ∧ n.Follows s ∧ n.nearest = x := by
  constructor
  · intro h
    obtain ⟨whole, digits, fraction, rest, hwhole, hfraction, hrest, rfl⟩ := exists_number_text s
    rw [decimal?_append hwhole hfraction hrest] at h
    split at h
    next => cases h
    next hdigit =>
      obtain ⟨exponent, hexponent, hx⟩ := Option.map_eq_some_iff.1 h
      exact ⟨⟨negative, whole, digits, exponent⟩, rfl,
        ⟨hwhole, not_and.1 hdigit, fraction, rest, hfraction, exponent?_eq_some_iff.1 hexponent, rfl⟩, hx⟩
  · rintro ⟨n, rfl, ⟨hwhole, hdigit, fraction, exponent, hfraction, hexponent, rfl⟩, rfl⟩
    rw [decimal?_append hwhole hfraction (hexponent.endsNumber fraction), if_neg (not_and.2 hdigit),
      exponent?_eq_some_iff.2 hexponent]
    rfl

/-- The text of a number starts with a digit or a point. -/
theorem Decimal.Follows.head? {n : Decimal} {s : List Char} (h : n.Follows s) :
    ∃ c, s.head? = some c ∧ (c.isDigit = true ∨ c = '.') := by
  obtain ⟨negative, whole, digits, exponent⟩ := n
  obtain ⟨hwhole, hdigit, fraction, ending, hfraction, -, rfl⟩ := h
  cases whole with
  | cons c whole => exact ⟨c, rfl, .inl (hwhole c List.mem_cons_self)⟩
  | nil => cases hfraction with
    | none => exact absurd rfl (hdigit rfl)
    | point => exact ⟨'.', rfl, .inr rfl⟩

/-! ## Names -/

/-- The names of infinities and of NaN start with one of two letters. -/
theorem head?_of_name {name : List Char}
    (h : Text.lowerAscii (String.ofList name) ∈ ["inf", "infinity"] ∨ Text.lowerAscii (String.ofList name) = "nan") :
    ∃ c, name.head? = some c ∧ (c.toLower = 'i' ∨ c.toLower = 'n') := by
  have hletters : (Text.lowerAscii (String.ofList name)).toList = name.map Char.toLower := by
    simp [Text.lowerAscii]
  cases name with
  | nil => exact absurd h (by decide)
  | cons c name =>
    refine ⟨c, rfl, ?_⟩
    rw [List.map_cons] at hletters
    simp only [List.mem_cons, List.not_mem_nil, or_false] at h
    obtain (h | h) | h := h <;> rw [h] at hletters
    · exact .inl (List.cons.inj hletters).1.symm
    · exact .inl (List.cons.inj hletters).1.symm
    · exact .inr (List.cons.inj hletters).1.symm

theorem unsigned_of_name {name : List Char}
    (h : Text.lowerAscii (String.ofList name) ∈ ["inf", "infinity"] ∨ Text.lowerAscii (String.ofList name) = "nan") :
    Unsigned name := by
  obtain ⟨c, hc, hletter⟩ := head?_of_name h
  constructor <;> intro hsign <;> rw [hc] at hsign <;> cases hsign <;> exact absurd hletter (by decide)

/-- The text of a number is not a name. -/
theorem Decimal.Follows.not_name {n : Decimal} {s : List Char} (h : n.Follows s) :
    ¬ (Text.lowerAscii (String.ofList s) ∈ ["inf", "infinity"] ∨ Text.lowerAscii (String.ofList s) = "nan") := by
  intro hname
  obtain ⟨c, hc, hletter⟩ := head?_of_name hname
  obtain ⟨d, hd, hdigit⟩ := h.head?
  obtain rfl : c = d := Option.some.inj (hc.symm.trans hd)
  obtain hdigit | rfl := hdigit
  · have hbelow : c.val ≤ '9'.val := by simpa using (Bool.and_eq_true_iff.1 hdigit).2
    have hlower : c.toLower = c := dif_neg fun hupper => absurd (UInt32.le_trans hupper.1 hbelow) (by decide)
    rw [hlower] at hletter
    obtain rfl | rfl := hletter <;> exact absurd hdigit (by decide)
  · exact absurd hletter (by decide)

theorem Decimal.Follows.unsigned {n : Decimal} {s : List Char} (h : n.Follows s) : Unsigned s := by
  obtain ⟨c, hc, hdigit⟩ := h.head?
  constructor <;> intro hsign <;> rw [hc] at hsign <;> cases hsign <;> exact absurd hdigit (by decide)

theorem read?_eq (s : String) :
    read? s =
      if Text.lowerAscii (String.ofList (spanSign s.toList).2) ∈ ["inf", "infinity"] then
        some (infinity (spanSign s.toList).1)
      else if Text.lowerAscii (String.ofList (spanSign s.toList).2) = "nan" then some nan
      else decimal? (spanSign s.toList).1 (spanSign s.toList).2 := by
  rw [read?]
  dsimp only
  split <;> simp_all

/-- A text is read as a double if it names the double, or if it is the text of a number nearest to the double. -/
theorem read?_eq_some_iff {s : String} {x : Double} :
    read? s = some x ↔ NamedAs x s.toList ∨ ∃ n : Decimal, n.WrittenAs s.toList ∧ n.nearest = x := by
  rw [read?_eq]
  constructor
  · intro h
    obtain ⟨sign, hsign, hs⟩ := spanSign_spec s.toList
    generalize spanSign s.toList = text at h hsign hs
    rw [hs]
    split at h
    next hname =>
      cases h
      exact .inl (.infinity hsign hname)
    next =>
      split at h
      next hname =>
        cases h
        exact .inl (.nan hsign hname)
      next =>
        obtain ⟨n, hnegative, hn, hx⟩ := decimal?_eq_some_iff.1 h
        exact .inr ⟨n, ⟨sign, text.2, hnegative ▸ hsign, hn, rfl⟩, hx⟩
  · generalize s.toList = text
    rintro ((⟨hsign, hname⟩ | ⟨hsign, hname⟩) | ⟨n, ⟨sign, rest, hsign, hn, rfl⟩, rfl⟩)
    · rw [spanSign_append hsign (unsigned_of_name (.inl hname)), if_pos hname]
    · have hother : "nan" ∉ ["inf", "infinity"] := by decide
      rw [← hname] at hother
      rw [spanSign_append hsign (unsigned_of_name (.inr hname)), if_neg hother, if_pos hname]
    · rw [spanSign_append hsign hn.unsigned, if_neg fun h => hn.not_name (.inl h),
        if_neg fun h => hn.not_name (.inr h)]
      exact decimal?_eq_some_iff.2 ⟨n, rfl, hn, rfl⟩

/-- The text is a name of a double or that of a number. -/
def Denotes (s : List Char) : Prop :=
  (∃ x, NamedAs x s) ∨ ∃ n : Decimal, n.WrittenAs s

theorem denotes_iff {s : List Char} : Denotes s ↔ ∃ x, read? (String.ofList s) = some x := by
  simp only [read?_eq_some_iff, String.toList_ofList]
  constructor
  · rintro (⟨x, hname⟩ | ⟨n, hn⟩)
    · exact ⟨x, .inl hname⟩
    · exact ⟨n.nearest, .inr ⟨n, hn, rfl⟩⟩
  · rintro ⟨x, hname | ⟨n, hn, -⟩⟩
    · exact .inl ⟨x, hname⟩
    · exact .inr ⟨n, hn⟩

/-! ## Finite numbers -/

/-- The text is that of a number within the range of the doubles. -/
def DenotesFinite (s : List Char) : Prop :=
  ∃ n : Decimal, n.WrittenAs s ∧ n.size < overflow

theorem NamedAs.not_isFinite {x : Double} {s : List Char} (h : NamedAs x s) : x.isFinite = false := by
  cases h with
  | infinity => exact not_isFinite_infinity _
  | nan => exact not_isFinite_nan

theorem Decimal.isFinite_nearest_iff (n : Decimal) : n.nearest.isFinite = true ↔ n.size < overflow :=
  isFinite_ofScientific_iff _ _ _

/-- What is read from a text is finite just if the text is that of a number within the range of the doubles. -/
theorem isFinite_iff_of_read? {s : String} {x : Double} (h : read? s = some x) :
    x.isFinite = true ↔ DenotesFinite s.toList := by
  constructor
  · intro hfinite
    obtain hname | ⟨n, hn, rfl⟩ := read?_eq_some_iff.1 h
    · exact absurd hfinite (by simp [hname.not_isFinite])
    · exact ⟨n, hn, n.isFinite_nearest_iff.1 hfinite⟩
  · rintro ⟨n, hn, hsize⟩
    have hread := read?_eq_some_iff.2 (.inr ⟨n, hn, rfl⟩)
    rw [h] at hread
    rw [Option.some.inj hread]
    exact n.isFinite_nearest_iff.2 hsize

end Geocoding.Double
