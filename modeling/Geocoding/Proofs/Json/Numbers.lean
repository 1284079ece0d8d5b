import Geocoding.Proofs.Json.Strings

/-!
# Numbers in JSON, read back

A number is read back digit by digit, as long as what stands behind it does not continue it. It has to be made of
digits, and to start with no zero that could be left out.
-/

namespace Geocoding.Json

/-! ## Digits -/

/-- All of them are decimal digits. -/
def AreDigits (ds : List Nat) : Prop :=
  ∀ d ∈ ds, d < 10

/-- The decimal digits of a number. -/
def decimalDigits (n : Nat) : List Nat :=
  n.repr.toList.map (·.toNat - 48)

/-- The bytes of digits. -/
def digitBytes (ds : List Nat) : Bytes :=
  ds.map fun d => UInt8.ofNat (48 + d)

section Digits

variable {ds : List Nat} {n : Nat} {rest : Bytes}

theorem toNat_digit {d : Nat} (h : d < 10) : (Char.ofNat (48 + d)).toNat = 48 + d := by
  have hall : ∀ d : Fin 10, (Char.ofNat (48 + d)).toNat = 48 + d := by decide
  exact hall ⟨d, h⟩

theorem ofNat_digit {c : Char} (h : c.isDigit = true) : Char.ofNat (48 + (c.toNat - 48)) = c := by
  have hlow : 48 ≤ c.toNat := (Char.isDigit_iff_toNat.1 h).1
  rw [Nat.add_sub_cancel' hlow, Char.ofNat_toNat]

theorem isDigit_of_mem_repr {c : Char} (h : c ∈ n.repr.toList) : c.isDigit = true :=
  Nat.isDigit_of_mem_toDigits (b := 10) (n := n) (by decide) (by decide) (by simpa [Nat.repr] using h)

theorem areDigits_decimalDigits (n : Nat) : AreDigits (decimalDigits n) := by
  intro d hd
  obtain ⟨c, hc, rfl⟩ := List.mem_map.1 hd
  have hhigh : c.toNat ≤ 57 := (Char.isDigit_iff_toNat.1 (isDigit_of_mem_repr hc)).2
  omega

theorem decimalDigits_ne_nil (n : Nat) : decimalDigits n ≠ [] := by
  simp [decimalDigits, Nat.repr, Nat.toDigits_ne_nil]

theorem digitText_decimalDigits (n : Nat) : digitText (decimalDigits n) = n.repr := by
  have hdigits : n.repr.toList.map ((fun d => Char.ofNat (48 + d)) ∘ fun c => c.toNat - 48) = n.repr.toList.map id :=
    List.map_congr_left fun c hc => ofNat_digit (isDigit_of_mem_repr hc)
  rw [digitText, decimalDigits, List.map_map, hdigits, List.map_id, String.ofList_toList]

theorem ofDigits_decimalDigits (n : Nat) : Text.ofDigits 0 (decimalDigits n) = n := by
  rw [Text.ofDigits, decimalDigits, List.foldl_map]
  simpa [Nat.repr, Nat.ofDigitChars] using Nat.ofDigitChars_ten_toDigits (n := n)

/-- No decimal notation starts with a zero but that of zero. -/
theorem head?_decimalDigits (h : n ≠ 0) : (decimalDigits n).head? ≠ some 0 := by
  induction n using Nat.strongRecOn with
  | _ n ih =>
    by_cases hsmall : n < 10
    · have hall : ∀ n : Fin 10, n.val ≠ 0 → (decimalDigits n).head? ≠ some 0 := by decide
      exact hall ⟨n, hsmall⟩ h
    · have hdigits : decimalDigits n = decimalDigits (n / 10) ++ [(n % 10).digitChar.toNat - 48] := by
        simp [decimalDigits, Nat.repr, Nat.toDigits_of_base_le (b := 10) (by decide) (Nat.le_of_not_lt hsmall)]
      rw [hdigits, List.head?_append, Option.or_of_isSome (by simp [decimalDigits_ne_nil])]
      exact ih (n / 10) (by omega) (by omega)

theorem encode_digitText (h : AreDigits ds) : Text.encode (digitText ds) = digitBytes ds := by
  rw [digitText, Text.encode_ofList, List.flatMap_map, digitBytes]
  induction ds with
  | nil => rfl
  | cons d ds ih =>
    obtain ⟨hd, hds⟩ := List.forall_mem_cons.1 h
    have hascii : (Char.ofNat (48 + d)).toNat < 128 := by
      rw [toNat_digit hd]
      omega
    rw [List.flatMap_cons, List.map_cons, ih hds, Text.utf8EncodeChar_of_ascii hascii, toNat_digit hd]
    rfl

theorem printable_digitText (h : AreDigits ds) : Printable (digitText ds) := by
  rw [Printable, digitText, String.toList_ofList]
  intro c hc
  obtain ⟨d, hd, rfl⟩ := List.mem_map.1 hc
  rw [toNat_digit (h d hd)]
  omega

/-! ## Reading digits -/

theorem isDigit_digit {d : Nat} (h : d < 10) : isDigit (UInt8.ofNat (48 + d)) = true := by
  have hall : ∀ d : Fin 10, isDigit (UInt8.ofNat (48 + d)) = true := by decide
  exact hall ⟨d, h⟩

/-- What stands behind digits does not continue them. -/
def NoDigit (rest : Bytes) : Prop :=
  ∀ b, rest.head? = some b → isDigit b = false

theorem NoDigit.takeWhile (h : NoDigit rest) : rest.takeWhile isDigit = [] ∧ rest.dropWhile isDigit = rest := by
  cases rest with
  | nil => exact ⟨rfl, rfl⟩
  | cons b rest => simp [h b rfl]

theorem spanDigits_digitBytes (h : AreDigits ds) (hrest : NoDigit rest) :
    spanDigits (digitBytes ds ++ rest) = (ds, rest) := by
  have hdigits : ∀ b ∈ digitBytes ds, isDigit b = true := by
    intro b hb
    obtain ⟨d, hd, rfl⟩ := List.mem_map.1 hb
    exact isDigit_digit (h d hd)
  have hvalues : (digitBytes ds).map (·.toNat - 48) = ds := by
    rw [digitBytes, List.map_map, List.map_congr_left (g := id) fun d hd => ?_, List.map_id]
    have := h d hd
    simp
    omega
  rw [spanDigits, List.takeWhile_append_of_pos hdigits, List.dropWhile_append_of_pos hdigits, hrest.takeWhile.1,
    hrest.takeWhile.2, List.append_nil, hvalues]

end Digits

/-! ## Numbers -/

/-- A number that can be written: there are digits before the point, of which the first is no zero that could be
left out, and behind it if there is a point. -/
structure Number.WellFormed (n : Number) : Prop where
  whole : AreDigits n.whole
  ne_nil : n.whole ≠ []
  leading : ∀ ds, n.whole = 0 :: ds → ds = []
  fraction : ∀ ds, n.fraction = some ds → AreDigits ds ∧ ds ≠ []

/-- What stands behind a number does not continue it. -/
def Stops (rest : Bytes) : Prop :=
  ∀ b, rest.head? = some b → isDigit b = false ∧ b ≠ 0x2E ∧ b ≠ 0x65 ∧ b ≠ 0x45

theorem Stops.noDigit {rest : Bytes} (h : Stops rest) : NoDigit rest :=
  fun b hb => (h b hb).1

namespace Number

variable {n : Number} {rest : Bytes}

/-- The text of a fraction, with its point. -/
def fractionText (n : Number) : String :=
  match n.fraction with
  | some ds => "." ++ digitText ds
  | none => ""

/-- The text of an exponent, with its mark. -/
def exponentText (n : Number) : String :=
  match n.exponent with
  | some e => (if e < 0 then "e-" else "e+") ++ e.natAbs.repr
  | none => ""

theorem render_eq (n : Number) :
    n.render = (if n.negative then "-" else "") ++ digitText n.whole ++ n.fractionText ++ n.exponentText := rfl

theorem fractionText_of_none (h : n.fraction = none) : n.fractionText = "" := by
  simp [fractionText, h]

theorem encode_fractionText {ds : List Nat} (h : n.fraction = some ds) (hdigits : AreDigits ds) :
    Text.encode n.fractionText = 0x2E :: digitBytes ds := by
  simp only [fractionText, h, Text.encode_append, encode_digitText hdigits]
  rfl

theorem exponentText_of_none (h : n.exponent = none) : n.exponentText = "" := by
  simp [exponentText, h]

theorem encode_exponentText {e : Int} (h : n.exponent = some e) :
    Text.encode n.exponentText = 0x65 :: (if decide (e < 0) then 0x2D else 0x2B) :: Text.encode e.natAbs.repr := by
  simp only [exponentText, h, Text.encode_append]
  by_cases hneg : e < 0 <;> simp only [hneg, if_true, if_false, decide_true, decide_false] <;> rfl

/-- The exponent does not continue the digits before it, and starts with no point. -/
theorem noDigit_exponentText (n : Number) (hrest : Stops rest) :
    NoDigit (Text.encode n.exponentText ++ rest) ∧ (Text.encode n.exponentText ++ rest).head? ≠ some 0x2E := by
  cases hexponent : n.exponent with
  | none =>
    rw [exponentText_of_none hexponent]
    exact ⟨hrest.noDigit, fun hpoint => (hrest _ hpoint).2.1 rfl⟩
  | some e =>
    rw [encode_exponentText hexponent]
    refine ⟨fun b hb => ?_, by simp⟩
    obtain rfl : 0x65 = b := by simpa using hb
    rfl

/-- Nor does the fraction. -/
theorem noDigit_fractionText (h : n.WellFormed) (hrest : NoDigit rest) :
    NoDigit (Text.encode n.fractionText ++ rest) := by
  cases hfraction : n.fraction with
  | none =>
    rw [fractionText_of_none hfraction]
    exact hrest
  | some ds =>
    rw [encode_fractionText hfraction (h.fraction ds hfraction).1]
    intro b hb
    obtain rfl : 0x2E = b := by simpa using hb
    rfl

theorem wholePart_whole (h : n.WellFormed) (hrest : NoDigit rest) :
    wholePart (digitBytes n.whole ++ rest) = some (n.whole, rest) := by
  rw [wholePart, spanDigits_digitBytes h.whole hrest]
  cases hwhole : n.whole with
  | nil => exact absurd hwhole h.ne_nil
  | cons d ds =>
    cases ds with
    | nil => cases d <;> rfl
    | cons d' ds =>
      cases d with
      | zero => cases h.leading _ hwhole
      | succ d => rfl

theorem fractionPart_fractionText (h : n.WellFormed) (hrest : NoDigit rest) (hpoint : rest.head? ≠ some 0x2E) :
    fractionPart (Text.encode n.fractionText ++ rest) = some (n.fraction, rest) := by
  cases hfraction : n.fraction with
  | none =>
    rw [fractionText_of_none hfraction]
    change fractionPart rest = _
    unfold fractionPart
    split
    · exact absurd rfl hpoint
    · rfl
  | some ds =>
    obtain ⟨hdigits, hne⟩ := h.fraction ds hfraction
    rw [encode_fractionText hfraction hdigits, List.cons_append, fractionPart, spanDigits_digitBytes hdigits hrest]
    cases ds with
    | nil => exact absurd rfl hne
    | cons d ds => rfl

/-- A mark, a sign and digits are an exponent. -/
theorem exponentPart_mark (negative : Bool) (m : Nat) (hrest : NoDigit rest) :
    exponentPart (0x65 :: (if negative then 0x2D else 0x2B) :: (Text.encode m.repr ++ rest)) =
      some (some (if negative then -(m : Int) else m), rest) := by
  have hspan : spanDigits (Text.encode m.repr ++ rest) = (decimalDigits m, rest) := by
    rw [← digitText_decimalDigits, encode_digitText (areDigits_decimalDigits m),
      spanDigits_digitBytes (areDigits_decimalDigits m) hrest]
  obtain ⟨d, ds, hdigits⟩ := List.exists_cons_of_ne_nil (decimalDigits_ne_nil m)
  have hvalue := ofDigits_decimalDigits m
  rw [hdigits] at hspan hvalue
  cases negative <;> simp [exponentPart, hspan, hvalue]

theorem exponentPart_exponentText (n : Number) (hrest : Stops rest) :
    exponentPart (Text.encode n.exponentText ++ rest) = some (n.exponent, rest) := by
  cases hexponent : n.exponent with
  | none =>
    rw [exponentText_of_none hexponent]
    change exponentPart rest = _
    cases rest with
    | nil => rfl
    | cons b rest =>
      obtain ⟨-, -, hsmall, hcapital⟩ := hrest b rfl
      simp [exponentPart, hsmall, hcapital]
  | some e =>
    have hvalue : (if decide (e < 0) = true then -(e.natAbs : Int) else e.natAbs) = e := by
      simp only [decide_eq_true_eq]
      split <;> omega
    have hmark := exponentPart_mark (decide (e < 0)) e.natAbs hrest.noDigit
    rw [hvalue] at hmark
    rw [encode_exponentText hexponent]
    exact hmark

/-- A number is read back digit by digit. -/
theorem readNumber_render (h : n.WellFormed) (hrest : Stops rest) :
    readNumber (Text.encode n.render ++ rest) = some (n, rest) := by
  obtain ⟨hexponent, hpoint⟩ := noDigit_exponentText n hrest
  have hwhole := wholePart_whole h (noDigit_fractionText h hexponent)
  have hfraction := fractionPart_fractionText h hexponent hpoint
  have hlast := exponentPart_exponentText n hrest
  have htext : Text.encode n.render ++ rest = Text.encode (if n.negative then "-" else "") ++
      (digitBytes n.whole ++ (Text.encode n.fractionText ++ (Text.encode n.exponentText ++ rest))) := by
    simp only [render_eq, Text.encode_append, encode_digitText h.whole, List.append_assoc]
  rw [htext]
  generalize Text.encode n.fractionText ++ (Text.encode n.exponentText ++ rest) = behind at *
  obtain ⟨d, ds, hdigits⟩ := List.exists_cons_of_ne_nil h.ne_nil
  cases hnegative : n.negative with
  | true =>
    change readNumber (0x2D :: (digitBytes n.whole ++ behind)) = _
    simp only [readNumber, hwhole, hfraction, hlast, Option.bind_eq_bind, Option.bind_some]
    rw [← hnegative]
  | false =>
    -- The first byte is that of a digit, so it is no sign.
    have hsign : UInt8.ofNat (48 + d) ≠ 0x2D := by
      have hall : ∀ d : Fin 10, UInt8.ofNat (48 + d) ≠ 0x2D := by decide
      exact hall ⟨d, h.whole d (by simp [hdigits])⟩
    change readNumber (digitBytes n.whole ++ behind) = _
    unfold readNumber
    split
    next negative s heq =>
      split at heq
      next r hr =>
        rw [hdigits] at hr
        exact absurd (List.head_eq_of_cons_eq hr) hsign
      next =>
        obtain ⟨rfl, rfl⟩ := Prod.mk.inj heq
        simp only [hwhole, hfraction, hlast, Option.bind_eq_bind, Option.bind_some]
        rw [← hnegative]

/-- A number starts with a sign or a digit. -/
theorem head_render (h : n.WellFormed) :
    ∃ b bytes, Text.encode n.render = b :: bytes ∧ (b = 0x2D ∨ isDigit b = true) := by
  obtain ⟨d, ds, hdigits⟩ := List.exists_cons_of_ne_nil h.ne_nil
  simp only [render_eq, Text.encode_append, encode_digitText h.whole, List.append_assoc]
  rw [hdigits]
  cases n.negative with
  | true => exact ⟨0x2D, _, rfl, .inl rfl⟩
  | false => exact ⟨_, _, rfl, .inr (isDigit_digit (h.whole d (by simp [hdigits])))⟩

theorem printable_render (h : n.WellFormed) : Printable n.render := by
  rw [render_eq]
  refine ((Printable.append ?_ (printable_digitText h.whole)).append ?_).append ?_
  · cases n.negative <;> decide
  · cases hfraction : n.fraction with
    | none =>
      rw [fractionText_of_none hfraction]
      decide
    | some ds =>
      simp only [fractionText, hfraction]
      exact Printable.append (by decide) (printable_digitText (h.fraction ds hfraction).1)
  · cases hexponent : n.exponent with
    | none =>
      rw [exponentText_of_none hexponent]
      decide
    | some e =>
      simp only [exponentText, hexponent, ← digitText_decimalDigits]
      refine Printable.append ?_ (printable_digitText (areDigits_decimalDigits _))
      split <;> decide

/-! ## Integers -/

theorem wellFormed_ofInt (i : Int) : (ofInt i).WellFormed where
  whole := areDigits_decimalDigits i.natAbs
  ne_nil := decimalDigits_ne_nil i.natAbs
  leading ds hds := by
    change decimalDigits i.natAbs = 0 :: ds at hds
    by_cases hzero : i.natAbs = 0
    · rw [hzero] at hds
      exact (List.cons.inj hds).2.symm
    · exact absurd (by rw [hds]; rfl) (head?_decimalDigits hzero)
  fraction ds hds := by cases hds

theorem render_ofInt (i : Int) : (ofInt i).render = toString i := by
  have hwhole : digitText (ofInt i).whole = i.natAbs.repr := digitText_decimalDigits i.natAbs
  rw [render_eq, hwhole, fractionText_of_none rfl, exponentText_of_none rfl, String.append_empty, String.append_empty]
  cases i with
  | ofNat m => simp [ofInt, toString, Int.repr]
  | negSucc m => simp [ofInt, toString, Int.repr]

theorem toInt?_ofInt (i : Int) : (ofInt i).toInt? = some i := by
  have hvalue : Text.ofDigits 0 (ofInt i).whole = i.natAbs := ofDigits_decimalDigits i.natAbs
  simp only [toInt?, hvalue]
  by_cases hneg : i < 0
  · have hne : i.natAbs ≠ 0 := by omega
    have habs : -(i.natAbs : Int) = i := by omega
    simp only [ofInt, hneg, decide_true, if_true, if_neg hne, habs]
  · have habs : (i.natAbs : Int) = i := by omega
    simp only [ofInt, hneg, decide_false, if_false, Bool.false_eq_true, habs]

end Number

end Geocoding.Json
