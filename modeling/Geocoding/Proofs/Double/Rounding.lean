import Geocoding.Double.Basic
import Mathlib.Data.Int.Log
import Mathlib.Data.Rat.Floor
import Mathlib.Tactic.FieldSimp
import Mathlib.Tactic.Linarith
import Mathlib.Tactic.NormNum
import Mathlib.Tactic.Positivity
import Mathlib.Tactic.Ring

/-!
# Where rounding leaves the finite doubles

The largest finite double is `2 ^ 1024 - 2 ^ 971`. Up to half a step beyond it numbers are still rounded down to
it; from there on they are rounded to infinity.
-/

namespace Geocoding.Double

/-- The least number that is rounded to infinity. -/
def overflow : ℚ := 2 ^ 1024 - 2 ^ 970

section Magnitude

variable {b : Bool} {m : Nat} {x : Double}

theorem toNat_bits_ofMagnitude (h : m < Nat.pow 2 63) :
    (ofMagnitude b m).bits.toNat = if b then Nat.pow 2 63 + m else m := by
  have hpow : Nat.pow 2 63 = 9223372036854775808 := by decide
  cases b <;> simp only [ofMagnitude, Bool.false_eq_true, if_true, if_false, UInt64.toNat_ofNat'] <;> omega

theorem magnitude_ofMagnitude (h : m < Nat.pow 2 63) : (ofMagnitude b m).magnitude = m := by
  rw [magnitude, toNat_bits_ofMagnitude h]
  cases b
  · exact Nat.mod_eq_of_lt h
  · simp [Nat.mod_eq_of_lt h]

theorem isFinite_ofMagnitude (h : m ≤ infinite) : (ofMagnitude b m).isFinite = true ↔ m < infinite := by
  have hlow : infinite < Nat.pow 2 63 := by decide
  simp [isFinite, magnitude_ofMagnitude (Nat.lt_of_le_of_lt h hlow)]

theorem not_isFinite_infinity (b : Bool) : (infinity b).isFinite = false := by
  cases b <;> rfl

theorem not_isFinite_nan : nan.isFinite = false := rfl

/-- The sign plays no part. -/
theorem isFinite_neg (x : Double) : x.neg.isFinite = x.isFinite := by
  have hmagnitude : x.magnitude < Nat.pow 2 63 := Nat.mod_lt _ (by decide)
  rw [isFinite, neg, magnitude_ofMagnitude hmagnitude, isFinite]

end Magnitude

/-! ## Scaling -/

section Ratio

variable {n d : Nat}

theorem scale_den_pos (hd : 0 < d) (e : Int) : 0 < (scale n d e).2 := by
  unfold scale
  split
  · exact hd
  · exact Nat.mul_pos hd (Nat.pow_pos Nat.two_pos)

theorem scale_eq (hd : 0 < d) (e : Int) :
    ((scale n d e).1 : ℚ) / (scale n d e).2 = n / d * (2 : ℚ) ^ e := by
  have hd' : (d : ℚ) ≠ 0 := by exact_mod_cast hd.ne'
  unfold scale
  split
  next he =>
    obtain ⟨k, rfl⟩ := Int.eq_ofNat_of_zero_le he
    simp only [Int.toNat_natCast, Nat.pow_eq, Nat.cast_mul, Nat.cast_pow, Nat.cast_ofNat, zpow_natCast]
    ring
  next he =>
    obtain ⟨k, rfl⟩ : ∃ k : Nat, e = -(k : Int) := ⟨(-e).toNat, by omega⟩
    simp only [neg_neg, Int.toNat_natCast, Nat.pow_eq, Nat.cast_mul, Nat.cast_pow, Nat.cast_ofNat, zpow_neg,
      zpow_natCast]
    field_simp

/-- The exponent is that of the highest power of two in the ratio. -/
theorem floorLog2_eq (hn : 0 < n) (hd : 0 < d) : floorLog2 n d = Int.log 2 ((n : ℚ) / d) := by
  have hd' : (0 : ℚ) < d := by exact_mod_cast hd
  have hratio : (0 : ℚ) < n / d := div_pos (by exact_mod_cast hn) hd'
  set k : Int := (Nat.log2 n : Int) - (Nat.log2 d : Int) with hk
  -- The powers of two in `n` and in `d` leave two exponents to choose from.
  have hhigh : (n : ℚ) / d < 2 ^ (k + 1) := by
    have hn2 : (n : ℚ) < 2 ^ ((Nat.log2 n : Int) + 1) := by exact_mod_cast Nat.lt_log2_self
    have hd2 : (2 : ℚ) ^ (Nat.log2 d : Int) ≤ d := by exact_mod_cast Nat.log2_self_le hd.ne'
    rw [div_lt_iff₀ hd']
    calc (n : ℚ) < 2 ^ ((Nat.log2 n : Int) + 1) := hn2
      _ = 2 ^ (k + 1) * 2 ^ (Nat.log2 d : Int) := by rw [← zpow_add₀ two_ne_zero, hk]; ring_nf
      _ ≤ 2 ^ (k + 1) * d := mul_le_mul_of_nonneg_left hd2 (zpow_pos two_pos _).le
  have hlow : (2 : ℚ) ^ (k - 1) ≤ n / d := by
    have hn2 : (2 : ℚ) ^ (Nat.log2 n : Int) ≤ n := by exact_mod_cast Nat.log2_self_le hn.ne'
    have hd2 : (d : ℚ) ≤ 2 ^ ((Nat.log2 d : Int) + 1) := by exact_mod_cast Nat.lt_log2_self.le
    rw [le_div_iff₀ hd']
    calc (2 : ℚ) ^ (k - 1) * d ≤ 2 ^ (k - 1) * 2 ^ ((Nat.log2 d : Int) + 1) :=
          mul_le_mul_of_nonneg_left hd2 (zpow_pos two_pos _).le
      _ = 2 ^ (Nat.log2 n : Int) := by rw [← zpow_add₀ two_ne_zero, hk]; ring_nf
      _ ≤ n := hn2
  have hden : (0 : ℚ) < (scale n d (-k)).2 := by exact_mod_cast scale_den_pos hd (-k)
  have hchoice : (scale n d (-k)).2 ≤ (scale n d (-k)).1 ↔ (2 : ℚ) ^ k ≤ n / d := by
    rw [← Nat.cast_le (α := ℚ), ← one_le_div hden, scale_eq hd, zpow_neg, ← div_eq_mul_inv,
      one_le_div (zpow_pos two_pos k)]
  have hlog (j : Int) : j ≤ Int.log 2 ((n : ℚ) / d) ↔ (2 : ℚ) ^ j ≤ n / d := by
    simpa using (Int.zpow_le_iff_le_log (b := 2) (by decide) hratio).symm
  have hk1 := (hlog (k - 1)).2 hlow
  have hk2 : ¬ k + 1 ≤ Int.log 2 ((n : ℚ) / d) := fun h => absurd ((hlog (k + 1)).1 h) (not_le.2 hhigh)
  have hfloor : floorLog2 n d = if (scale n d (-k)).2 ≤ (scale n d (-k)).1 then k else k - 1 := rfl
  rw [hfloor]
  split
  next h =>
    have := (hlog k).2 (hchoice.1 h)
    omega
  next h =>
    have : ¬ k ≤ Int.log 2 ((n : ℚ) / d) := fun hle => h (hchoice.2 ((hlog k).1 hle))
    omega

/-- Half a step below an even number everything is rounded up to it. -/
theorem le_roundDiv_iff {m : Nat} (hm : m % 2 = 0) (hd : 0 < d) :
    m ≤ roundDiv n d ↔ (m : ℚ) - 1 / 2 ≤ n / d := by
  have hd' : (0 : ℚ) < d := by exact_mod_cast hd
  have hbound : (m : ℚ) - 1 / 2 ≤ n / d ↔ 2 * m * d ≤ 2 * n + d := by
    rw [le_div_iff₀ hd', ← Nat.cast_le (α := ℚ)]
    push_cast
    constructor <;> intro h <;> linarith
  have hrest := Nat.mod_lt n hd
  have hsplit := Nat.div_add_mod n d
  rw [hbound]
  unfold roundDiv
  simp only
  generalize n / d = q at *
  generalize n % d = r at *
  -- Only where the quotient is one too small does the remainder decide.
  obtain hle | rfl | hge : m ≤ q ∨ m = q + 1 ∨ q + 2 ≤ m := by omega
  · have hmul : d * m ≤ d * q := Nat.mul_le_mul_left d hle
    have hall : 2 * m * d ≤ 2 * n + d := by
      rw [Nat.mul_assoc, Nat.mul_comm m]
      omega
    refine iff_of_true ?_ hall
    split_ifs <;> omega
  · have hmul : 2 * (q + 1) * d = 2 * (d * q) + 2 * d := by ring
    rw [hmul]
    split_ifs <;> omega
  · have hmul : d * (q + 2) ≤ d * m := Nat.mul_le_mul_left d hge
    have hnone : ¬ 2 * m * d ≤ 2 * n + d := by
      rw [Nat.mul_assoc, Nat.mul_comm m]
      rw [Nat.mul_add] at hmul
      omega
    refine iff_of_false ?_ hnone
    split_ifs <;> omega

/-! ## Overflow -/

theorem overflow_eq : overflow = ((2 ^ 53 : Nat) - 1 / 2) * 2 ^ (971 : Int) := by
  have hhigh : (2 : ℚ) ^ 1024 = 2 ^ 53 * 2 ^ 971 := by rw [← pow_add]
  have hlow : (2 : ℚ) ^ 971 = 2 * 2 ^ 970 := by rw [← pow_succ']
  rw [overflow, show (2 : ℚ) ^ (971 : Int) = 2 ^ 971 from zpow_natCast 2 971, hhigh, hlow]
  generalize (2 : ℚ) ^ 970 = t
  push_cast
  ring

theorem lt_overflow : (2 : ℚ) ^ (1023 : Int) < overflow := by
  have hsplit : (2 : ℚ) ^ (1023 : Int) = 2 ^ 52 * 2 ^ (971 : Int) := by
    rw [← zpow_natCast, ← zpow_add₀ two_ne_zero]
    rfl
  rw [overflow_eq, hsplit]
  exact mul_lt_mul_of_pos_right (by norm_num) (zpow_pos two_pos _)

theorem overflow_lt : overflow < (2 : ℚ) ^ (1024 : Int) := by
  have hsplit : (2 : ℚ) ^ (1024 : Int) = 2 ^ 53 * 2 ^ (971 : Int) := by
    rw [← zpow_natCast, ← zpow_add₀ two_ne_zero]
    rfl
  rw [overflow_eq, hsplit]
  exact mul_lt_mul_of_pos_right (by norm_num) (zpow_pos two_pos _)

/-- A ratio is rounded to infinity from half a step beyond the largest double on. -/
theorem isFinite_ofRatio_iff (b : Bool) (n : Nat) (hd : 0 < d) :
    (ofRatio b n d).isFinite = true ↔ (n : ℚ) / d < overflow := by
  obtain rfl | hn := Nat.eq_zero_or_pos n
  · have hzero : ofRatio b 0 d = ofMagnitude b 0 := rfl
    rw [hzero, isFinite_ofMagnitude (by decide), Nat.cast_zero, zero_div]
    exact iff_of_true (by decide) ((zpow_pos two_pos _).trans lt_overflow)
  have hratio : (0 : ℚ) < n / d := div_pos (by exact_mod_cast hn) (by exact_mod_cast hd)
  have hbelow : (n : ℚ) / d < 2 ^ (Int.log 2 ((n : ℚ) / d) + 1) := by
    simpa using Int.lt_zpow_succ_log_self (b := 2) (by decide) ((n : ℚ) / d)
  have habove : (2 : ℚ) ^ Int.log 2 ((n : ℚ) / d) ≤ n / d := by
    simpa using Int.zpow_log_le_self (b := 2) (by decide) hratio
  -- The steps of the doubles about the ratio are `2 ^ e`, and it is `r` of them when rounded.
  set e : Int := max (floorLog2 n d - 52) (-1074) with he
  set r : Nat := roundDiv (scale n d (-e)).1 (scale n d (-e)).2 with hr
  have hvalue : ofRatio b n d = ofMagnitude b (min infinite ((e + 1074).toNat * Nat.pow 2 52 + r)) := by
    rw [ofRatio, if_neg hn.ne']
  have hpow : Nat.pow 2 52 = 4503599627370496 := by decide
  have hinfinite : infinite = 2047 * 4503599627370496 := by decide
  have hfinite : (ofRatio b n d).isFinite = true ↔
      (e + 1074).toNat * 4503599627370496 + r < 2047 * 4503599627370496 := by
    rw [hvalue, isFinite_ofMagnitude (Nat.min_le_left ..), hpow, hinfinite]
    omega
  rw [floorLog2_eq hn hd] at he
  have hround {m : Nat} (hm : m % 2 = 0) : m ≤ r ↔ ((m : ℚ) - 1 / 2) * 2 ^ e ≤ n / d := by
    rw [hr, le_roundDiv_iff hm (scale_den_pos hd _), scale_eq hd, zpow_neg, ← div_eq_mul_inv,
      le_div_iff₀ (zpow_pos two_pos e)]
  have hsize : (n : ℚ) / d < 2 ^ 53 * 2 ^ e := by
    refine hbelow.trans_le ?_
    rw [← zpow_natCast, ← zpow_add₀ two_ne_zero]
    exact zpow_le_zpow_right₀ one_le_two (by push_cast; omega)
  have hpos : (0 : ℚ) < 2 ^ e := zpow_pos two_pos e
  rw [hfinite]
  obtain hlow | heq | hhigh : e ≤ 970 ∨ e = 971 ∨ 972 ≤ e := by omega
  · -- Even rounded up, the ratio is far from the last step.
    have hfew : ¬ 2 ^ 53 + 2 ≤ r := by
      rw [hround (by decide)]
      exact not_le.2 (hsize.trans (mul_lt_mul_of_pos_right (by norm_num) hpos))
    refine iff_of_true (by omega) (hsize.trans_le (le_trans ?_ lt_overflow.le))
    rw [← zpow_natCast, ← zpow_add₀ two_ne_zero]
    exact zpow_le_zpow_right₀ one_le_two (by push_cast; omega)
  · -- The last step of all is the one to infinity.
    have hlimit : 2 ^ 53 ≤ r ↔ overflow ≤ (n : ℚ) / d := by
      rw [hround (by decide), heq, overflow_eq]
    rw [← not_le (a := overflow), ← hlimit, heq]
    omega
  · have hnormal : Int.log 2 ((n : ℚ) / d) = e + 52 := by omega
    have hmany : 2 ^ 52 ≤ r := by
      rw [hround (by decide)]
      refine le_trans ?_ habove
      rw [hnormal, zpow_add₀ two_ne_zero, mul_comm]
      exact mul_le_mul_of_nonneg_left (by norm_num) hpos.le
    refine iff_of_false (by omega) (not_lt.2 ?_)
    calc overflow ≤ 2 ^ (1024 : Int) := overflow_lt.le
      _ ≤ 2 ^ Int.log 2 ((n : ℚ) / d) := zpow_le_zpow_right₀ one_le_two (by omega)
      _ ≤ n / d := habove

end Ratio

/-! ## Decimal exponents -/

section Scientific

variable {m : Nat}

/-- A number has no more decimal digits than its binary digits allow. -/
theorem lt_ten_pow (m : Nat) : m < 10 ^ ((Nat.log2 m + 1) * 31 / 100 + 1) := by
  refine Nat.lt_of_lt_of_le Nat.lt_log2_self ((Nat.pow_le_pow_iff_left (n := 100) (by decide)).1 ?_)
  generalize Nat.log2 m + 1 = size
  calc (2 ^ size) ^ 100 = (2 ^ 100) ^ size := by rw [← Nat.pow_mul, ← Nat.pow_mul, Nat.mul_comm]
    _ ≤ (10 ^ 31) ^ size := Nat.pow_le_pow_left (by decide) _
    _ = 10 ^ (31 * size) := by rw [← Nat.pow_mul]
    _ ≤ 10 ^ ((size * 31 / 100 + 1) * 100) := Nat.pow_le_pow_right (by decide) (by omega)
    _ = (10 ^ (size * 31 / 100 + 1)) ^ 100 := Nat.pow_mul ..

/-- It has as many as its binary digits demand. -/
theorem ten_pow_le (hm : m ≠ 0) : 10 ^ (Nat.log2 m * 3 / 10) ≤ m := by
  refine Nat.le_trans ((Nat.pow_le_pow_iff_left (n := 10) (by decide)).1 ?_) (Nat.log2_self_le hm)
  generalize Nat.log2 m = size
  calc (10 ^ (size * 3 / 10)) ^ 10 = 10 ^ (size * 3 / 10 * 10) := (Nat.pow_mul ..).symm
    _ ≤ 10 ^ (3 * size) := Nat.pow_le_pow_right (by decide) (by omega)
    _ = (10 ^ 3) ^ size := Nat.pow_mul ..
    _ ≤ (2 ^ 10) ^ size := Nat.pow_le_pow_left (by decide) _
    _ = (2 ^ size) ^ 10 := by rw [← Nat.pow_mul, ← Nat.pow_mul, Nat.mul_comm]

theorem overflow_le_ten_pow {e : Int} (h : 400 < e) : overflow ≤ 10 ^ e := by
  calc overflow ≤ 2 ^ (1024 : Int) := overflow_lt.le
    _ = (2 ^ 32) ^ 32 := by rw [← pow_mul]; rfl
    _ ≤ (10 ^ 10) ^ 32 := pow_le_pow_left₀ (by norm_num) (by norm_num) _
    _ = 10 ^ (320 : Int) := by rw [← pow_mul]; rfl
    _ ≤ 10 ^ e := zpow_le_zpow_right₀ (by norm_num) (by omega)

/-- A number with a decimal exponent is rounded to infinity where other numbers are. -/
theorem isFinite_ofScientific_iff (b : Bool) (m : Nat) (e : Int) :
    (ofScientific b m e).isFinite = true ↔ (m : ℚ) * 10 ^ e < overflow := by
  have hten : (0 : ℚ) < 10 ^ e := zpow_pos (by norm_num) e
  unfold ofScientific
  simp only
  split
  next hsmall =>
    -- By the number of its digits the number is at most one.
    refine iff_of_true ((isFinite_ofMagnitude (by decide)).2 (by decide)) ?_
    have hone : (1 : ℚ) < overflow := (one_lt_zpow₀ one_lt_two (by decide)).trans lt_overflow
    refine lt_of_le_of_lt ?_ hone
    obtain rfl | hsmall := hsmall
    · simp
    · have hm : (m : ℚ) ≤ 10 ^ (((Nat.log2 m : Int) + 1) * 31 / 100 + 1) := by exact_mod_cast (lt_ten_pow m).le
      calc (m : ℚ) * 10 ^ e ≤ 10 ^ (((Nat.log2 m : Int) + 1) * 31 / 100 + 1) * 10 ^ e :=
            mul_le_mul_of_nonneg_right hm hten.le
        _ = 10 ^ (((Nat.log2 m : Int) + 1) * 31 / 100 + 1 + e) := (zpow_add₀ (by norm_num) _ _).symm
        _ ≤ 1 := zpow_le_one_of_nonpos₀ (by norm_num) (by omega)
  next hsmall =>
    split
    next hlarge =>
      -- By the number of its digits it is beyond all doubles.
      refine iff_of_false (by rw [not_isFinite_infinity]; exact Bool.false_ne_true) (not_lt.2 ?_)
      have hm : (10 : ℚ) ^ ((Nat.log2 m : Int) * 3 / 10) ≤ m := by
        exact_mod_cast ten_pow_le (not_or.1 hsmall).1
      calc overflow ≤ 10 ^ ((Nat.log2 m : Int) * 3 / 10 + e) := overflow_le_ten_pow hlarge
        _ = 10 ^ ((Nat.log2 m : Int) * 3 / 10) * 10 ^ e := zpow_add₀ (by norm_num) _ _
        _ ≤ m * 10 ^ e := mul_le_mul_of_nonneg_right hm hten.le
    next =>
      split
      next he =>
        -- In between it is a ratio, with the power of ten in the numerator or in the denominator.
        obtain ⟨k, rfl⟩ := Int.eq_ofNat_of_zero_le he
        rw [isFinite_ofRatio_iff b _ Nat.one_pos]
        simp
      next he =>
        obtain ⟨k, rfl⟩ : ∃ k : Nat, e = -(k : Int) := ⟨(-e).toNat, by omega⟩
        have hden : 0 < Nat.pow 10 (- -(k : Int)).toNat := Nat.pow_pos (by decide)
        rw [isFinite_ofRatio_iff b _ hden]
        simp [div_eq_mul_inv]

end Scientific

end Geocoding.Double
