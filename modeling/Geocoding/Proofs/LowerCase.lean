import Geocoding.Proofs.CanonicalAddress
import Geocoding.Proofs.Trimming

/-!
# What lower-casing keeps

Lower-casing a text is done letter by letter, but for the sigma, whose form hangs on its neighbours. So facts about
the whole text come from facts about the table of capitals, which are checked once, and about what the neighbours of
a sigma may be. Three of them are shown here: a text in lower case stays as it is; it has no blanks at its ends if it
had none before; and the case of ASCII letters makes no difference to it.
-/

namespace Geocoding.Text

/-! ## The table of capitals -/

/-- The code point of the last lower case that a run gives. -/
def LowerRun.lastImage (r : LowerRun) : Nat :=
  r.image + (r.last - r.first)

/-- The lower cases that a run gives lie before these code points or behind them. -/
def LowerRun.misses (r : LowerRun) (first last : Nat) : Bool :=
  r.lastImage.blt first || last.blt r.image

/-- No lower case that the first run gives is a capital of the second one: they lie apart, or in the gaps. -/
def LowerRun.avoids (r t : LowerRun) : Bool :=
  r.misses t.first t.last || (t.step == 2 && (r.step == 2 || r.first == r.last) && (r.image + t.first) % 2 == 1)

theorem LowerRun.covers_iff {r : LowerRun} {n : Nat} :
    r.covers n = true ↔ (r.first ≤ n ∧ n ≤ r.last) ∧ (n - r.first) % r.step = 0 := by
  simp [covers]

theorem LowerRun.misses_iff {r : LowerRun} {first last : Nat} :
    r.misses first last = true ↔ r.image + (r.last - r.first) < first ∨ last < r.image := by
  simp [misses, lastImage]

theorem LowerRun.not_covers_of_avoids {r t : LowerRun} {n : Nat} (h : r.avoids t = true) (hn : r.covers n = true) :
    t.covers (r.image + (n - r.first)) = false := by
  rw [← Bool.not_eq_true]
  intro ht
  rw [covers_iff] at hn ht
  simp only [avoids, Bool.or_eq_true, Bool.and_eq_true, beq_iff_eq, misses_iff] at h
  obtain hapart | ⟨⟨hstep, hspaced⟩, hparity⟩ := h
  · omega
  · -- The lower case is an even number of places behind the first one, so an odd number behind a capital.
    rw [hstep] at ht
    rcases hspaced with hspaced | hspaced
    · rw [hspaced] at hn
      omega
    · omega

/-- The capital whose lower case has two characters, as a run of its own. -/
def dottedRun : LowerRun := ⟨0x130, 0x130, 1, 0⟩

theorem avoids_of_mem {r t : LowerRun} (hr : r ∈ lowerRuns) (ht : t ∈ dottedRun :: lowerRuns) :
    r.avoids t = true := by
  have hall : (lowerRuns.all fun r => (dottedRun :: lowerRuns).all fun t => r.avoids t) = true := by decide +kernel
  exact List.all_eq_true.1 (List.all_eq_true.1 hall r hr) t ht

/-- The code points that are blanks. -/
def blankRanges : List (Nat × Nat) :=
  [(9, 13), (0x20, 0x20), (0x85, 0x85), (0xA0, 0xA0), (0x1680, 0x1680), (0x2000, 0x200A), (0x2028, 0x2029),
    (0x202F, 0x202F), (0x205F, 0x205F), (0x3000, 0x3000)]

theorem isBlank_eq (c : Char) : isBlank c = inRanges blankRanges c.toNat := by
  rw [Bool.eq_iff_iff]
  simp only [isBlank, inRanges, blankRanges, List.any_cons, List.any_nil, Bool.or_false, Bool.or_eq_true,
    Bool.and_eq_true, decide_eq_true_eq, beq_iff_eq]
  omega

/-- Lower cases are no surrogates and no blanks. -/
theorem misses_of_mem {r : LowerRun} (hr : r ∈ lowerRuns) :
    r.lastImage < 0x110000 ∧ ∀ t ∈ (0xD800, 0xDFFF) :: blankRanges, r.misses t.1 t.2 = true := by
  have hall : (lowerRuns.all fun r => r.lastImage.blt 0x110000 &&
      ((0xD800, 0xDFFF) :: blankRanges).all fun t => r.misses t.1 t.2) = true := by decide +kernel
  simpa using List.all_eq_true.1 hall r hr

theorem isValidChar_image {r : LowerRun} (hr : r ∈ lowerRuns) {k : Nat} (hk : k ≤ r.last - r.first) :
    (r.image + k).isValidChar := by
  have hlast := (misses_of_mem hr).1
  have hsurrogates := LowerRun.misses_iff.1 ((misses_of_mem hr).2 (0xD800, 0xDFFF) List.mem_cons_self)
  unfold LowerRun.lastImage at hlast
  unfold Nat.isValidChar
  omega

theorem isBlank_image {r : LowerRun} (hr : r ∈ lowerRuns) {k : Nat} (hk : k ≤ r.last - r.first) :
    isBlank (Char.ofNat (r.image + k)) = false := by
  rw [isBlank_eq, toNat_ofNat (isValidChar_image hr hk), ← Bool.not_eq_true, inRanges_eq_true_iff]
  rintro ⟨t, ht, hwithin⟩
  have hmisses := LowerRun.misses_iff.1 ((misses_of_mem hr).2 t (List.mem_cons_of_mem _ ht))
  omega

/-! ## ASCII letters -/

theorem toLower_eq_self {c : Char} (h : ¬ (0x41 ≤ c.toNat ∧ c.toNat ≤ 0x5A)) : c.toLower = c :=
  dif_neg h

/-- What does not tell an ASCII capital from its small letter does not depend on the case of ASCII letters. -/
theorem apply_toLower {α : Type} {f : Char → α}
    (h : ∀ i : Fin 26, f (Char.ofNat (0x61 + i)) = f (Char.ofNat (0x41 + i))) (c : Char) : f c.toLower = f c := by
  have hsmall : ∀ i : Fin 26, (Char.ofNat (0x41 + i)).toLower = Char.ofNat (0x61 + i) := by decide
  by_cases hcapital : 0x41 ≤ c.toNat ∧ c.toNat ≤ 0x5A
  · obtain ⟨i, rfl⟩ : ∃ i : Fin 26, c = Char.ofNat (0x41 + i) :=
      ⟨⟨c.toNat - 0x41, by omega⟩, by simp [Nat.add_sub_of_le hcapital.1]⟩
    rw [hsmall, h]
  · rw [toLower_eq_self hcapital]

theorem isBlank_toLower (c : Char) : isBlank c.toLower = isBlank c :=
  apply_toLower (by decide) c

theorem isCased_toLower (c : Char) : isCased c.toLower = isCased c :=
  apply_toLower (by decide) c

theorem lowerChar_toLower (c : Char) : lowerChar c.toLower = lowerChar c :=
  apply_toLower (by decide) c

theorem toLower_eq_sigma_iff (c : Char) : c.toLower = 'Σ' ↔ c = 'Σ' := by
  have h := apply_toLower (f := fun c => decide (c = 'Σ')) (by decide) c
  simpa using h

/-- No ASCII letter is skipped. -/
theorem not_ignorable_of_letter {n : Nat} (h : (0x41 ≤ n ∧ n ≤ 0x5A) ∨ (0x61 ≤ n ∧ n ≤ 0x7A)) :
    inRanges ignorableRanges n = false := by
  have hall : (ignorableRanges.all fun t => t.2.blt 0x41 || (Nat.blt 0x5A t.1 && t.2.blt 0x61) || Nat.blt 0x7A t.1) =
      true := by decide +kernel
  rw [← Bool.not_eq_true, inRanges_eq_true_iff]
  rintro ⟨t, ht, hwithin⟩
  have happart := List.all_eq_true.1 hall t ht
  simp only [Bool.or_eq_true, Bool.and_eq_true, Nat.blt_eq] at happart
  omega

theorem isCaseIgnorable_toLower (c : Char) : isCaseIgnorable c.toLower = isCaseIgnorable c := by
  refine apply_toLower (fun i => ?_) c
  rw [isCaseIgnorable, isCaseIgnorable, toNat_ofNat (.inl (by omega)), toNat_ofNat (.inl (by omega)),
    not_ignorable_of_letter (.inr ⟨by omega, by omega⟩), not_ignorable_of_letter (.inl ⟨by omega, by omega⟩)]

/-! ## Letters -/

/-- A character that is in no run is its own lower case. -/
theorem lowerChar_of_not_covered {c : Char} (h : ∀ r ∈ dottedRun :: lowerRuns, r.covers c.toNat = false) :
    lowerChar c = [c] := by
  obtain ⟨hdotted, hruns⟩ := List.forall_mem_cons.1 h
  unfold lowerChar
  split
  · next hc =>
    subst hc
    exact absurd hdotted (by decide)
  split
  · -- The first run holds the ASCII capitals.
    have hfirst := hruns ⟨0x41, 0x5A, 1, 0x61⟩ List.mem_cons_self
    have hnot : ¬ (0x41 ≤ c.toNat ∧ c.toNat ≤ 0x5A) := fun hcapital =>
      Bool.false_ne_true (hfirst.symm.trans (LowerRun.covers_iff.2 ⟨hcapital, Nat.mod_one _⟩))
    rw [toLower_eq_self hnot]
  · rw [List.find?_eq_none.2 fun r hr => by simp [hruns r hr]]

/-- The lower case of a letter, from where the definition looks for it. -/
theorem lowerChar_cases (c : Char) :
    lowerChar c = ['i', '\u0307'] ∨ lowerChar c = [c.toLower] ∨
    (∃ r ∈ lowerRuns, r.covers c.toNat = true ∧ lowerChar c = [Char.ofNat (r.image + (c.toNat - r.first))]) ∨
    lowerChar c = [c] := by
  unfold lowerChar
  split
  · exact .inl rfl
  split
  · exact .inr (.inl rfl)
  split
  · next r hfind =>
    exact .inr (.inr (.inl ⟨r, List.mem_of_find?_eq_some hfind, by simpa using List.find?_some hfind, rfl⟩))
  · exact .inr (.inr (.inr rfl))

/-- Letters in lower case are their own lower case. -/
theorem lowerChar_of_mem_lowerChar {c d : Char} (h : d ∈ lowerChar c) : lowerChar d = [d] := by
  obtain hdotted | hascii | ⟨r, hr, hcovers, himage⟩ | hself := lowerChar_cases c
  · have hd : d = 'i' ∨ d = '\u0307' := by simpa [hdotted] using h
    rcases hd with rfl | rfl
    · decide
    · decide
  · rw [hascii, List.mem_singleton] at h
    rw [h, lowerChar_toLower, hascii]
  · rw [himage, List.mem_singleton] at h
    subst h
    have hcovers' := LowerRun.covers_iff.1 hcovers
    refine lowerChar_of_not_covered fun t ht => ?_
    rw [toNat_ofNat (isValidChar_image hr (by omega))]
    exact LowerRun.not_covers_of_avoids (avoids_of_mem hr ht) hcovers
  · rw [hself, List.mem_singleton] at h
    exact h ▸ hself

/-- The lower case of a letter is no blank. -/
theorem isBlank_of_mem_lowerChar {c d : Char} (h : d ∈ lowerChar c) (hc : isBlank c = false) : isBlank d = false := by
  obtain hdotted | hascii | ⟨r, hr, hcovers, himage⟩ | hself := lowerChar_cases c
  · have hd : d = 'i' ∨ d = '\u0307' := by simpa [hdotted] using h
    rcases hd with rfl | rfl
    · decide
    · decide
  · rw [hascii, List.mem_singleton] at h
    rw [h, isBlank_toLower, hc]
  · rw [himage, List.mem_singleton] at h
    have hcovers' := LowerRun.covers_iff.1 hcovers
    exact h ▸ isBlank_image hr (by omega)
  · rw [hself, List.mem_singleton] at h
    exact h ▸ hc

/-! ## Texts -/

/-- The lower case of one character between the (reversed) text before it and the text after it. -/
def lowerAt (before : List Char) (c : Char) (after : List Char) : List Char :=
  if c = 'Σ' then [lowerSigma before after] else lowerChar c

theorem lowerAfter_cons (before : List Char) (c : Char) (s : List Char) :
    lowerAfter before (c :: s) = lowerAt before c s ++ lowerAfter (c :: before) s := rfl

theorem lowerAt_cases (before : List Char) (c : Char) (after : List Char) :
    lowerAt before c after = ['ς'] ∨ lowerAt before c after = ['σ'] ∨ lowerAt before c after = lowerChar c := by
  unfold lowerAt lowerSigma
  split
  · split
    · exact .inl rfl
    · exact .inr (.inl rfl)
  · exact .inr (.inr rfl)

theorem lowerAt_ne_nil (before : List Char) (c : Char) (after : List Char) : lowerAt before c after ≠ [] := by
  obtain h | h | h := lowerAt_cases before c after
  · exact h ▸ List.cons_ne_nil _ _
  · exact h ▸ List.cons_ne_nil _ _
  · exact h ▸ lowerChar_ne_nil c

theorem lowerChar_of_mem_lowerAt {before after : List Char} {c d : Char} (h : d ∈ lowerAt before c after) :
    lowerChar d = [d] := by
  obtain hat | hat | hat := lowerAt_cases before c after
  · obtain rfl := List.mem_singleton.1 (hat ▸ h)
    decide
  · obtain rfl := List.mem_singleton.1 (hat ▸ h)
    decide
  · exact lowerChar_of_mem_lowerChar (hat ▸ h)

theorem isBlank_of_mem_lowerAt {before after : List Char} {c d : Char} (h : d ∈ lowerAt before c after)
    (hc : isBlank c = false) : isBlank d = false := by
  obtain hat | hat | hat := lowerAt_cases before c after
  · obtain rfl := List.mem_singleton.1 (hat ▸ h)
    decide
  · obtain rfl := List.mem_singleton.1 (hat ▸ h)
    decide
  · exact isBlank_of_mem_lowerChar (hat ▸ h) hc

/-! ### Texts in lower case stay as they are -/

theorem lowerChar_of_mem_lowerAfter {before s : List Char} {d : Char} (h : d ∈ lowerAfter before s) :
    lowerChar d = [d] := by
  induction s generalizing before with
  | nil => cases h
  | cons c s ih =>
    rw [lowerAfter_cons, List.mem_append] at h
    rcases h with h | h
    · exact lowerChar_of_mem_lowerAt h
    · exact ih h

theorem lowerAfter_eq_self {s : List Char} (h : ∀ d ∈ s, lowerChar d = [d]) (before : List Char) :
    lowerAfter before s = s := by
  induction s generalizing before with
  | nil => rfl
  | cons c s ih =>
    have hc : lowerChar c = [c] := h c List.mem_cons_self
    -- The sigma is a capital, so no letter in lower case is one.
    have hsigma : c ≠ 'Σ' := by
      rintro rfl
      exact absurd hc (by decide)
    rw [lowerAfter_cons, lowerAt, if_neg hsigma, hc, ih fun d hd => h d (List.mem_cons_of_mem _ hd)]
    rfl

theorem lower_lower (s : String) : lower (lower s) = lower s := by
  have hstays : lowerAfter [] (lowerAfter [] s.toList) = lowerAfter [] s.toList :=
    lowerAfter_eq_self (fun d hd => lowerChar_of_mem_lowerAfter hd) []
  rw [lower, lower, String.toList_ofList, hstays]

/-! ### The ends of a text -/

theorem lowerAfter_ne_nil {before s : List Char} (h : s ≠ []) : lowerAfter before s ≠ [] := by
  cases s with
  | nil => exact absurd rfl h
  | cons c s => exact List.append_ne_nil_of_left_ne_nil (lowerAt_ne_nil _ _ _) _

theorem head?_lowerAfter {before s : List Char} (h : ∀ c ∈ s.head?, isBlank c = false) :
    ∀ d ∈ (lowerAfter before s).head?, isBlank d = false := by
  cases s with
  | nil => exact nofun
  | cons c s =>
    intro d hd
    rw [lowerAfter_cons, List.head?_append_of_ne_nil _ (lowerAt_ne_nil _ _ _)] at hd
    exact isBlank_of_mem_lowerAt (List.mem_of_head? hd) (h c rfl)

theorem getLast?_lowerAfter {before s : List Char} (h : ∀ c ∈ s.getLast?, isBlank c = false) :
    ∀ d ∈ (lowerAfter before s).getLast?, isBlank d = false := by
  induction s generalizing before with
  | nil => exact nofun
  | cons c s ih =>
    intro d hd
    rw [lowerAfter_cons] at hd
    by_cases hs : s = []
    · subst hs
      rw [lowerAfter, List.append_nil] at hd
      exact isBlank_of_mem_lowerAt (List.mem_of_getLast? hd) (h c rfl)
    · rw [List.getLast?_append_of_ne_nil _ (lowerAfter_ne_nil hs)] at hd
      refine ih (fun c' hc' => h c' ?_) d hd
      rwa [List.getLast?_cons_of_ne_nil hs]

/-- Lower-casing puts no blank at an end that has none. -/
theorem trimmed_lowerAfter {s : List Char} (h : Trimmed s) (before : List Char) : Trimmed (lowerAfter before s) :=
  ⟨head?_lowerAfter h.head, getLast?_lowerAfter h.last⟩

theorem trim_lower_trim (s : String) : trim (lower (trim s)) = lower (trim s) := by
  have htrimmed : Trimmed (lower (trim s)).toList := by
    rw [lower, trim, String.toList_ofList, String.toList_ofList]
    exact trimmed_lowerAfter (trimmed_strip _) []
  rw [trim, strip_eq_self htrimmed, String.ofList_toList]

/-! ### The case of ASCII letters -/

theorem strip_map_toLower (s : List Char) : strip (s.map Char.toLower) = (strip s).map Char.toLower := by
  have hblank : isBlank ∘ Char.toLower = isBlank := funext isBlank_toLower
  simp only [strip, dropEnd, List.dropWhile_map, hblank, ← List.map_reverse]

theorem meetsCased_map_toLower (s : List Char) : meetsCased (s.map Char.toLower) = meetsCased s := by
  have hignorable : isCaseIgnorable ∘ Char.toLower = isCaseIgnorable := funext isCaseIgnorable_toLower
  rw [meetsCased, meetsCased, List.dropWhile_map, hignorable]
  cases s.dropWhile isCaseIgnorable with
  | nil => rfl
  | cons c s => exact isCased_toLower c

/-- A sigma has the same form whatever the case of the letters around it. -/
theorem lowerAt_toLower (before : List Char) (c : Char) (after : List Char) :
    lowerAt (before.map Char.toLower) c.toLower (after.map Char.toLower) = lowerAt before c after := by
  simp only [lowerAt, lowerSigma, toLower_eq_sigma_iff, meetsCased_map_toLower, lowerChar_toLower]

theorem lowerAfter_map_toLower (before s : List Char) :
    lowerAfter (before.map Char.toLower) (s.map Char.toLower) = lowerAfter before s := by
  induction s generalizing before with
  | nil => rfl
  | cons c s ih =>
    rw [List.map_cons, lowerAfter_cons, lowerAfter_cons, lowerAt_toLower]
    exact congrArg _ (ih (c :: before))

theorem lower_lowerAscii (s : String) : lower (lowerAscii s) = lower s := by
  rw [lower, lowerAscii, String.toList_ofList, ← List.map_nil (f := Char.toLower), lowerAfter_map_toLower]
  rfl

theorem trim_lowerAscii (s : String) : trim (lowerAscii s) = lowerAscii (trim s) := by
  rw [trim, lowerAscii, lowerAscii, trim, String.toList_ofList, String.toList_ofList, strip_map_toLower]

end Geocoding.Text
