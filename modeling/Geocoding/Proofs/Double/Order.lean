import Geocoding.Proofs.Double.Rounding
import Mathlib.Order.Monotone.Basic

/-!
# The order of the doubles

Comparing doubles looks at their bits. It agrees with the order of the numbers that they are, because the bits below
the sign grow with the absolute value: from one double to the next the significand grows by one, and where it would
overflow the exponent grows instead. The two zeros are one number, and what is not finite is enclosed by no numbers.
-/

namespace Geocoding.Double

/-- The number that a finite double is. -/
def value (x : Double) : ℚ :=
  let size : ℚ := x.decompose.1 * 2 ^ x.decompose.2
  if x.negative then -size else size

theorem value_of_decompose {x : Double} {m : Nat} {q : Int} (hnegative : x.negative = false)
    (hparts : x.decompose = (m, q)) : x.value = m * 2 ^ q := by
  rw [value, hnegative, hparts]
  rfl

/-! ## Absolute values -/

/-- What a magnitude stands for, as a multiple of the smallest positive double. -/
def units (m : Nat) : Nat :=
  if m / 2 ^ 52 = 0 then m % 2 ^ 52 else (2 ^ 52 + m % 2 ^ 52) * 2 ^ (m / 2 ^ 52 - 1)

theorem units_zero : units 0 = 0 := rfl

theorem units_lt_succ (m : Nat) : units m < units (m + 1) := by
  obtain ⟨exponent, fraction, hfraction, rfl⟩ : ∃ exponent fraction, fraction < 2 ^ 52 ∧
      m = fraction + 2 ^ 52 * exponent := ⟨m / 2 ^ 52, m % 2 ^ 52, by omega, by omega⟩
  have hunits {f : Nat} (hf : f < 2 ^ 52) (e : Nat) :
      units (f + 2 ^ 52 * e) = if e = 0 then f else (2 ^ 52 + f) * 2 ^ (e - 1) := by
    have hdiv : (f + 2 ^ 52 * e) / 2 ^ 52 = e := by omega
    have hmod : (f + 2 ^ 52 * e) % 2 ^ 52 = f := by omega
    rw [units, hdiv, hmod]
  rw [hunits hfraction]
  by_cases hlast : fraction + 1 < 2 ^ 52
  · rw [Nat.add_right_comm, hunits hlast]
    split
    · exact Nat.lt_succ_self _
    · exact Nat.mul_lt_mul_of_pos_right (by omega) (Nat.two_pow_pos _)
  · -- The fraction is full, so the next double has none and the next exponent.
    obtain rfl : fraction = 2 ^ 52 - 1 := by omega
    have hnext : 2 ^ 52 - 1 + 2 ^ 52 * exponent + 1 = 0 + 2 ^ 52 * (exponent + 1) := by omega
    rw [hnext, hunits (Nat.two_pow_pos 52), if_neg (Nat.succ_ne_zero _), Nat.add_sub_cancel, Nat.add_zero]
    cases exponent with
    | zero => decide
    | succ exponent =>
      have hpos := Nat.two_pow_pos exponent
      have hpow : 2 ^ (exponent + 1) = 2 * 2 ^ exponent := Nat.pow_succ'
      rw [if_neg (Nat.succ_ne_zero _), Nat.add_sub_cancel, hpow]
      calc (2 ^ 52 + (2 ^ 52 - 1)) * 2 ^ exponent < 2 ^ 52 * 2 * 2 ^ exponent :=
            Nat.mul_lt_mul_of_pos_right (by decide) hpos
        _ = 2 ^ 52 * (2 * 2 ^ exponent) := Nat.mul_assoc ..

theorem strictMono_units : StrictMono units :=
  strictMono_nat_of_lt_succ units_lt_succ

/-- The absolute value, by the magnitude. -/
theorem size_eq (x : Double) :
    (x.decompose.1 : ℚ) * 2 ^ x.decompose.2 = units x.magnitude * 2 ^ (-1074 : Int) := by
  have hpow : Nat.pow 2 52 = 2 ^ 52 := rfl
  unfold decompose units
  rw [hpow]
  dsimp only
  by_cases hexponent : x.magnitude / 2 ^ 52 = 0
  · rw [if_pos hexponent, if_pos hexponent]
  · have hsplit : ((x.magnitude / 2 ^ 52 : Nat) : Int) - 1075 = ((x.magnitude / 2 ^ 52 - 1 : Nat) : Int) + -1074 := by
      omega
    rw [if_neg hexponent, if_neg hexponent]
    dsimp only
    rw [hsplit, zpow_add₀ two_ne_zero, zpow_natCast, ← mul_assoc, Nat.cast_mul, Nat.cast_pow, Nat.cast_ofNat]

theorem negative_ofMagnitude {b : Bool} {m : Nat} (h : m < Nat.pow 2 63) : (ofMagnitude b m).negative = b := by
  rw [negative, toNat_bits_ofMagnitude h]
  cases b
  · exact decide_eq_false (Nat.not_le.2 h)
  · exact decide_eq_true (Nat.le_add_right _ _)

theorem value_neg (x : Double) : x.neg.value = -x.value := by
  have hmagnitude : x.magnitude < Nat.pow 2 63 := Nat.mod_lt _ (by decide)
  simp only [value, size_eq, neg, negative_ofMagnitude hmagnitude, magnitude_ofMagnitude hmagnitude]
  cases x.negative <;> simp

/-! ## Comparisons -/

/-- The bits below the sign, with the sign. -/
def signed (x : Double) : Int :=
  if x.negative then -x.magnitude else x.magnitude

/-- The numbers are in the order of the signed bits. -/
theorem value_le_iff {x y : Double} : x.value ≤ y.value ↔ x.signed ≤ y.signed := by
  have hunit : (0 : ℚ) < 2 ^ (-1074 : Int) := zpow_pos two_pos _
  have hmono {m n : Nat} : (units m : ℚ) * 2 ^ (-1074 : Int) ≤ units n * 2 ^ (-1074 : Int) ↔ m ≤ n := by
    rw [mul_le_mul_iff_left₀ hunit, Nat.cast_le, strictMono_units.le_iff_le]
  have hnonneg (m : Nat) : (0 : ℚ) ≤ units m * 2 ^ (-1074 : Int) := mul_nonneg (Nat.cast_nonneg _) hunit.le
  have hzero {m : Nat} : (units m : ℚ) * 2 ^ (-1074 : Int) ≤ 0 ↔ m ≤ 0 := by
    simpa [units_zero] using @hmono m 0
  simp only [value, signed, size_eq]
  cases x.negative <;> cases y.negative
  case false.false => simpa using hmono
  case true.true => simpa using hmono
  case true.false => exact iff_of_true (by simpa using (neg_nonpos.2 (hnonneg _)).trans (hnonneg _)) (by simp)
  case false.true =>
    -- A number that is not negative is below none that is not positive, unless both are zero.
    have hboth {a b : ℚ} (ha : 0 ≤ a) (hb : 0 ≤ b) : a ≤ -b ↔ a ≤ 0 ∧ b ≤ 0 := by
      constructor
      · intro h
        exact ⟨h.trans (neg_nonpos.2 hb), neg_nonneg.1 (ha.trans h)⟩
      · rintro ⟨ha', hb'⟩
        exact ha'.trans (neg_nonneg.2 hb')
    simp only [Bool.false_eq_true, if_false, if_true]
    rw [hboth (hnonneg _) (hnonneg _), hzero, hzero]
    omega

theorem isFinite_eq_true_iff {x : Double} : x.isFinite = true ↔ x.magnitude < infinite := decide_eq_true_iff

theorem order?_eq (x : Double) : x.order? = if infinite < x.magnitude then none else some x.signed := by
  simp only [order?, isNaN, signed, decide_eq_true_eq]

theorem le_iff {x y : Double} :
    x.le y = true ↔ x.magnitude ≤ infinite ∧ y.magnitude ≤ infinite ∧ x.signed ≤ y.signed := by
  rw [le, order?_eq, order?_eq]
  by_cases hx : infinite < x.magnitude
  · rw [if_pos hx]
    exact iff_of_false Bool.false_ne_true fun h => absurd h.1 (Nat.not_le.2 hx)
  by_cases hy : infinite < y.magnitude
  · rw [if_neg hx, if_pos hy]
    exact iff_of_false Bool.false_ne_true fun h => absurd h.2.1 (Nat.not_le.2 hy)
  rw [if_neg hx, if_neg hy]
  simp only [decide_eq_true_eq, Nat.not_lt.1 hx, Nat.not_lt.1 hy, true_and]

/-- A double is enclosed by finite ones just if it is finite itself, and the numbers are in that order. -/
theorem between_iff {x low high : Double} (hlow : low.isFinite = true) (hhigh : high.isFinite = true) :
    x.between low high = true ↔ x.isFinite = true ∧ low.value ≤ x.value ∧ x.value ≤ high.value := by
  have hbound {y : Double} (hy : y.isFinite = true) : y.magnitude < infinite := isFinite_eq_true_iff.1 hy
  have hlow' := hbound hlow
  have hhigh' := hbound hhigh
  have hsigned (y : Double) : y.signed = y.magnitude ∨ y.signed = -y.magnitude := by
    unfold signed
    split <;> simp
  rw [between, Bool.and_eq_true, le_iff, le_iff, value_le_iff, value_le_iff, isFinite_eq_true_iff]
  have := hsigned x
  have := hsigned low
  have := hsigned high
  omega

end Geocoding.Double
