import Geocoding.Proofs.Json.Numbers

/-!
# Doubles as numbers in JSON

The text of a finite double is that of a number that can be written. The one thing that might go wrong are zeros
that lead it; they do not, because the shortest digits of a double are those of no zero.
-/

namespace Geocoding

namespace Double

section Shortest

variable {i : Interval} {tie : Tie} {x : Double}

theorem decompose_pos (h : x.magnitude ≠ 0) : 0 < x.decompose.1 := by
  have hpow : 0 < Nat.pow 2 52 := by decide
  unfold decompose
  simp only
  split
  next hexponent =>
    rw [Nat.mod_eq_of_lt (Nat.lt_of_div_eq_zero hpow hexponent)]
    exact Nat.pos_of_ne_zero h
  next => exact Nat.add_pos_left hpow _

theorem low_pos {m : Nat} (h : 0 < m) (q : Int) : 0 < (interval m q).low := by
  have hscale : 0 < (scale 1 4 q).1 := by
    unfold scale
    split
    · exact Nat.mul_pos Nat.one_pos (Nat.pow_pos Nat.two_pos)
    · exact Nat.one_pos
  refine Nat.mul_pos hscale ?_
  split <;> omega

theorem Interval.not_holds_zero (h : 0 < i.low) (e : Int) : i.holds 0 e = false := by
  have hpow : 0 < Nat.pow 10 (-e).toNat := Nat.pow_pos (by decide)
  have hle : ¬ i.low * Nat.pow 10 (-e).toNat ≤ 0 := Nat.not_le_of_lt (Nat.mul_pos h hpow)
  unfold Interval.holds
  simp only [Nat.zero_mul]
  split <;> simp only [hle, Nat.not_lt_zero, decide_false, Bool.false_and]

theorem Interval.candidate?_ne_zero (h : 0 < i.low) {e : Int} {d : Nat} (hd : i.candidate? tie e = some d) : d ≠ 0 := by
  have hheld : ∀ d', i.holds d' e = true → d' ≠ 0 := by
    rintro _ hheld rfl
    rw [Interval.not_holds_zero h e] at hheld
    cases hheld
  -- Of the two numbers around the value, the upper one is not zero, and the lower one counts only if it is held.
  unfold Interval.candidate? at hd
  simp only at hd
  generalize i.value * Nat.pow 10 (-e).toNat / (i.denominator * Nat.pow 10 e.toNat) = lower at hd
  split at hd
  next hlower _ =>
    cases hd
    exact hheld _ hlower
  next =>
    cases hd
    omega
  next => cases hd
  next hlower _ =>
    have hne := hheld _ hlower
    split at hd
    · cases hd
      exact hne
    · split at hd
      · cases hd
        omega
      · cases tie <;> cases hd <;> omega

theorem Interval.search_ne_zero (tie : Tie) (h : 0 < i.low) (e : Int) (fuel : Nat) :
    (i.search tie e fuel).1 ≠ 0 ∨ (i.search tie e fuel).2 = 0 := by
  induction fuel generalizing e with
  | zero => exact .inr rfl
  | succ fuel ih =>
    unfold Interval.search
    split
    next d hd => exact .inl (Interval.candidate?_ne_zero h hd)
    next => exact ih (e - 1)

theorem dropZeros_ne_zero {d : Nat} {e : Int} (h : d ≠ 0 ∨ e = 0) (fuel : Nat) :
    (dropZeros d e fuel).1 ≠ 0 ∨ (dropZeros d e fuel).2 = 0 := by
  induction fuel generalizing d e with
  | zero => exact h
  | succ fuel ih =>
    unfold dropZeros
    split
    next hzeros => exact ih (.inl (by omega))
    next => exact h

/-- The shortest digits are those of no zero, or else of zero itself. -/
theorem shortest_ne_zero (h : x.magnitude ≠ 0) (tie : Tie) :
    (x.shortest tie).1 ≠ 0 ∨ (x.shortest tie).2 = 0 := by
  have hsearch := Interval.search_ne_zero tie (low_pos (decompose_pos h) x.decompose.2)
  exact dropZeros_ne_zero (hsearch (decimalSize _ _ - 1) 17) 20

end Shortest

/-! ## Layout -/

open Json (AreDigits Number decimalDigits digitText)

/-- The characters of digits. -/
def digitChars (ds : List Nat) : List Char :=
  ds.map fun d => Char.ofNat (48 + d)

theorem toList_repr (n : Nat) : n.repr.toList = digitChars (decimalDigits n) := by
  rw [← Json.digitText_decimalDigits, digitText, String.toList_ofList, digitChars]

/-- Digits that a notation with a point before or behind them can start with: some, that no zero leads. -/
structure Leading (ds : List Nat) : Prop where
  digits : AreDigits ds
  ne_nil : ds ≠ []
  zero : ∀ ds', ds = 0 :: ds' → ds' = []

theorem leading_decimalDigits (n : Nat) : Leading (decimalDigits n) where
  digits := Json.areDigits_decimalDigits n
  ne_nil := Json.decimalDigits_ne_nil n
  zero ds h := Json.Number.wellFormed_ofInt n |>.leading ds h

theorem areDigits_zeros (k : Nat) : AreDigits (List.replicate k 0) := by
  intro d hd
  rw [List.eq_of_mem_replicate hd]
  decide

theorem digitChars_zeros (k : Nat) : digitChars (List.replicate k 0) = List.replicate k '0' := by
  simp [digitChars]

/-- A number with a point and without an exponent. -/
theorem wellFormed_point {whole fraction : List Nat} (hwhole : Leading whole) (hfraction : AreDigits fraction)
    (hne : fraction ≠ []) (negative : Bool) : Number.WellFormed ⟨negative, whole, some fraction, none⟩ where
  whole := hwhole.digits
  ne_nil := hwhole.ne_nil
  leading := hwhole.zero
  fraction ds hds := by
    cases hds
    exact ⟨hfraction, hne⟩

theorem render_point (negative : Bool) (whole fraction : List Nat) :
    Number.render ⟨negative, whole, some fraction, none⟩ = (if negative then "-" else "") ++
      String.ofList (digitChars whole ++ '.' :: digitChars fraction) := by
  apply String.toList_inj.1
  simp [Number.render, digitText, digitChars]

/-- Zeros may follow, unless the digits are those of zero. -/
theorem Leading.append_zeros {ds : List Nat} (h : Leading ds) {k : Nat} (hzero : ds = [0] → k = 0) :
    Leading (ds ++ List.replicate k 0) where
  digits := List.forall_mem_append.2 ⟨h.digits, areDigits_zeros k⟩
  ne_nil := by simp [h.ne_nil]
  zero ds' hds' := by
    obtain ⟨d, ds, rfl⟩ := List.exists_cons_of_ne_nil h.ne_nil
    obtain ⟨rfl, rfl⟩ := List.cons.inj hds'
    obtain rfl := h.zero ds rfl
    rw [hzero rfl]
    rfl

theorem Leading.take {ds : List Nat} (h : Leading ds) {k : Nat} (hk : 0 < k) : Leading (ds.take k) where
  digits d hd := h.digits d (List.mem_of_mem_take hd)
  ne_nil := by simp [h.ne_nil, Nat.ne_of_gt hk]
  zero ds' hds' := by
    obtain ⟨k, rfl⟩ := Nat.exists_eq_succ_of_ne_zero (Nat.ne_of_gt hk)
    obtain ⟨d, ds, rfl⟩ := List.exists_cons_of_ne_nil h.ne_nil
    rw [List.take_succ_cons] at hds'
    obtain ⟨rfl, rfl⟩ := List.cons.inj hds'
    obtain rfl := h.zero ds rfl
    exact List.take_nil

/-- There are digits on both sides of the point, and no zero that could be left out if zero itself has no more than
one place. -/
theorem positional_eq {ds : List Nat} (h : Leading ds) {point : Int} (hzero : ds = [0] → point ≤ 1) :
    ∃ whole fraction, Leading whole ∧ AreDigits fraction ∧ fraction ≠ [] ∧
      positional (digitChars ds) point ".0" = String.ofList (digitChars whole ++ '.' :: digitChars fraction) := by
  have hlength : (digitChars ds).length = ds.length := List.length_map _
  unfold positional
  simp only [hlength]
  split
  next hpoint =>
    -- All digits stand before the point, and then zeros.
    have hnone : ds = [0] → (point - ds.length).toNat = 0 := by
      intro hds
      have hone : ds.length = 1 := by rw [hds]; rfl
      have hlow := hzero hds
      omega
    refine ⟨_, [0], h.append_zeros hnone, areDigits_zeros 1, by simp, ?_⟩
    apply String.toList_inj.1
    simp [digitChars]
  next hpoint =>
    split
    next hpositive =>
      -- The point stands between two digits.
      have hne : ds.drop point.toNat ≠ [] := by
        rw [Ne, List.drop_eq_nil_iff]
        omega
      have hwhole : Leading (ds.take point.toNat) := h.take (by omega)
      refine ⟨_, _, hwhole, fun d hd => h.digits d (List.mem_of_mem_drop hd), hne, ?_⟩
      rw [digitChars, digitChars, digitChars, List.map_take, List.map_drop]
    next =>
      -- All digits stand behind the point, and zeros before them.
      refine ⟨_, List.replicate (-point).toNat 0 ++ ds, leading_decimalDigits 0,
        List.forall_mem_append.2 ⟨areDigits_zeros _, h.digits⟩, by simp [h.ne_nil], ?_⟩
      rw [← digitChars_zeros, digitChars, digitChars, digitChars, digitChars, List.map_append]
      rfl

/-- Digits with a point behind the first of them and an exponent are a number. -/
theorem exists_scientific {ds : List Nat} (h : Leading ds) (exponent : Int) (negative : Bool) :
    ∃ n : Number, n.WellFormed ∧
      n.render = (if negative then "-" else "") ++ scientific (digitChars ds) exponent := by
  obtain ⟨d, ds, rfl⟩ := List.exists_cons_of_ne_nil h.ne_nil
  obtain ⟨hd, hds⟩ := List.forall_mem_cons.1 h.digits
  have hwhole : AreDigits [d] := List.forall_mem_singleton.2 hd
  cases ds with
  | nil =>
    refine ⟨⟨negative, [d], none, some exponent⟩, ⟨hwhole, by simp, by simp, by simp⟩, ?_⟩
    apply String.toList_inj.1
    simp [Number.render, scientific, digitText, digitChars]
  | cons d' ds =>
    refine ⟨⟨negative, [d], some (d' :: ds), some exponent⟩, ⟨hwhole, by simp, by simp, ?_⟩, ?_⟩
    · rintro _ ⟨⟩
      exact ⟨hds, by simp⟩
    · apply String.toList_inj.1
      simp [Number.render, scientific, digitText, digitChars]

/-- The text of a finite double is that of a number. -/
theorem exists_number {x : Double} (h : x.isFinite = true) :
    ∃ n : Number, n.WellFormed ∧ n.render = x.jsonText := by
  by_cases hmagnitude : x.magnitude = 0
  · have htext : x.jsonText = x.signText ++ "0.0" := by simp [jsonText, h, hmagnitude]
    rw [htext]
    exact ⟨_, wellFormed_point (leading_decimalDigits 0) (areDigits_zeros 1) (by simp) x.negative, render_point ..⟩
  · rcases hshortest : x.shortest .toEven with ⟨d, e⟩
    have hne : d ≠ 0 ∨ e = 0 := by simpa [hshortest] using shortest_ne_zero hmagnitude .toEven
    -- Digits that are just a zero come with no exponent.
    have hzero : decimalDigits d = [0] → ((digitChars (decimalDigits d)).length : Int) + e ≤ 1 := by
      intro hdigits
      obtain hd | rfl := hne
      · exact absurd (by rw [hdigits]; rfl) (Json.head?_decimalDigits hd)
      · simp [hdigits, digitChars]
    have htext : x.jsonText = x.signText ++
        (let digits := digitChars (decimalDigits d)
        let point : Int := digits.length + e
        if -5 < point ∧ point ≤ 16 then positional digits point ".0" else scientific digits (point - 1)) := by
      simp only [jsonText, h, hmagnitude, hshortest, toList_repr, Bool.not_true, Bool.false_eq_true, if_false]
      split <;> rfl
    rw [htext]
    simp only
    split
    · obtain ⟨whole, fraction, hwhole, hfraction, hfractionne, hpositional⟩ :=
        positional_eq (leading_decimalDigits d) hzero
      rw [hpositional]
      exact ⟨_, wellFormed_point hwhole hfraction hfractionne x.negative, render_point ..⟩
    · exact exists_scientific (leading_decimalDigits d) _ x.negative

end Double

end Geocoding
