import Geocoding.Proofs.Json.Strings

/-!
# Lenient decoding of well-formed bytes

The decoder that marks ill-formed parts finds none in the bytes of a text. It is followed over the bytes of one
character, of which the first tells how many there are and narrows down the second; between two characters it is
always in the same state, so a text is read character by character.
-/

namespace Geocoding.Text

/-! ## Single bytes -/

theorem step_lead {b : UInt8} {p : Partial} (h : lead b.toNat = .begins p) (read : List Char) :
    Decoder.step ⟨none, read⟩ b = ⟨some p, read⟩ := by
  simp only [Decoder.step, Decoder.begin, h]

theorem step_last {low high bits : Nat} {b : UInt8} (hlow : low ≤ b.toNat) (hhigh : b.toNat ≤ high)
    (read : List Char) :
    Decoder.step ⟨some ⟨1, low, high, bits⟩, read⟩ b = ⟨none, Char.ofNat (bits * 64 + b.toNat % 64) :: read⟩ := by
  simp only [Decoder.step, if_pos (And.intro hlow hhigh), Nat.le_refl, if_true]

theorem step_more {n low high bits : Nat} {b : UInt8} (hlow : low ≤ b.toNat) (hhigh : b.toNat ≤ high)
    (read : List Char) :
    Decoder.step ⟨some ⟨n + 2, low, high, bits⟩, read⟩ b =
      ⟨some ⟨n + 1, 0x80, 0xBF, bits * 64 + b.toNat % 64⟩, read⟩ := by
  have hmore : ¬ n + 2 ≤ 1 := by omega
  simp only [Decoder.step, if_pos (And.intro hlow hhigh), if_neg hmore]
  rfl

/-! ## Bytes of a character -/

theorem lead_two {n : Nat} (hlow : 0x80 ≤ n) (hhigh : n < 0x800) :
    lead (n / 64 + 192) = .begins ⟨1, 0x80, 0xBF, n / 64⟩ := by
  have hbits : (n / 64 + 192) % 0x20 = n / 64 := by omega
  rw [lead, if_neg (by omega), if_neg (by omega), if_pos (by omega), hbits]

/-- The second byte is bounded from below where the first one has no bits of its own, and from above where surrogates
would follow. -/
theorem lead_three {n : Nat} (hlow : 0x800 ≤ n) (hhigh : n < 0x10000) :
    lead (n / 4096 + 224) = .begins ⟨2, if n / 4096 = 0 then 0xA0 else 0x80, if n / 4096 = 13 then 0x9F else 0xBF,
      n / 4096⟩ := by
  have hbits : (n / 4096 + 224) % 0x10 = n / 4096 := by omega
  have hzero : n / 4096 + 224 = 0xE0 ↔ n / 4096 = 0 := by omega
  have hsurrogate : n / 4096 + 224 = 0xED ↔ n / 4096 = 13 := by omega
  rw [lead, if_neg (by omega), if_neg (by omega), if_neg (by omega), if_pos (by omega), hbits]
  simp only [hzero, hsurrogate]

/-- The second byte is bounded from below where the first one has no bits of its own, and from above where the code
points end. -/
theorem lead_four {n : Nat} (hlow : 0x10000 ≤ n) (hhigh : n < 0x110000) :
    lead (n / 262144 + 240) = .begins ⟨3, if n / 262144 = 0 then 0x90 else 0x80,
      if n / 262144 = 4 then 0x8F else 0xBF, n / 262144⟩ := by
  have hbits : (n / 262144 + 240) % 0x08 = n / 262144 := by omega
  have hzero : n / 262144 + 240 = 0xF0 ↔ n / 262144 = 0 := by omega
  have hend : n / 262144 + 240 = 0xF4 ↔ n / 262144 = 4 := by omega
  rw [lead, if_neg (by omega), if_neg (by omega), if_neg (by omega), if_neg (by omega), if_pos (by omega), hbits]
  simp only [hzero, hend]

/-- A byte that goes on with a character, and the bits in it. -/
theorem toNat_following (n : Nat) : (UInt8.ofNat (n % 64 + 128)).toNat = n % 64 + 128 := by
  rw [UInt8.toNat_ofNat']
  omega

theorem foldl_step_two {c : Char} (hlow : 0x80 ≤ c.toNat) (hhigh : c.toNat < 0x800) (read : List Char) :
    [UInt8.ofNat (c.toNat / 64 % 32 + 192), UInt8.ofNat (c.toNat % 64 + 128)].foldl Decoder.step ⟨none, read⟩ =
      ⟨none, c :: read⟩ := by
  have hfirst : (UInt8.ofNat (c.toNat / 64 % 32 + 192)).toNat = c.toNat / 64 + 192 := by
    rw [UInt8.toNat_ofNat']
    omega
  have hbits : c.toNat / 64 * 64 + (c.toNat % 64 + 128) % 64 = c.toNat := by omega
  have hlast := toNat_following c.toNat
  rw [List.foldl_cons, step_lead (hfirst ▸ lead_two hlow hhigh), List.foldl_cons,
    step_last (by omega) (by omega), hlast, hbits, Char.ofNat_toNat, List.foldl_nil]

theorem foldl_step_three {c : Char} (hlow : 0x800 ≤ c.toNat) (hhigh : c.toNat < 0x10000) (read : List Char) :
    [UInt8.ofNat (c.toNat / 4096 % 16 + 224), UInt8.ofNat (c.toNat / 64 % 64 + 128),
        UInt8.ofNat (c.toNat % 64 + 128)].foldl Decoder.step ⟨none, read⟩ =
      ⟨none, c :: read⟩ := by
  have hfirst : (UInt8.ofNat (c.toNat / 4096 % 16 + 224)).toNat = c.toNat / 4096 + 224 := by
    rw [UInt8.toNat_ofNat']
    omega
  have hbits : (c.toNat / 4096 * 64 + (c.toNat / 64 % 64 + 128) % 64) * 64 + (c.toNat % 64 + 128) % 64 = c.toNat := by
    omega
  have hvalid : c.toNat < 0xD800 ∨ 0xDFFF < c.toNat ∧ c.toNat < 0x110000 := c.valid
  have hsecond := toNat_following (c.toNat / 64)
  have hlast := toNat_following c.toNat
  rw [List.foldl_cons, step_lead (hfirst ▸ lead_three hlow hhigh), List.foldl_cons,
    step_more (by split <;> omega) (by split <;> omega), List.foldl_cons, step_last (by omega) (by omega), hsecond,
    hlast, hbits, Char.ofNat_toNat, List.foldl_nil]

theorem foldl_step_four {c : Char} (hlow : 0x10000 ≤ c.toNat) (read : List Char) :
    [UInt8.ofNat (c.toNat / 262144 % 8 + 240), UInt8.ofNat (c.toNat / 4096 % 64 + 128),
        UInt8.ofNat (c.toNat / 64 % 64 + 128), UInt8.ofNat (c.toNat % 64 + 128)].foldl Decoder.step ⟨none, read⟩ =
      ⟨none, c :: read⟩ := by
  have hvalid : c.toNat < 0xD800 ∨ 0xDFFF < c.toNat ∧ c.toNat < 0x110000 := c.valid
  have hfirst : (UInt8.ofNat (c.toNat / 262144 % 8 + 240)).toNat = c.toNat / 262144 + 240 := by
    rw [UInt8.toNat_ofNat']
    omega
  have hbits : ((c.toNat / 262144 * 64 + (c.toNat / 4096 % 64 + 128) % 64) * 64 +
      (c.toNat / 64 % 64 + 128) % 64) * 64 + (c.toNat % 64 + 128) % 64 = c.toNat := by
    omega
  have hsecond := toNat_following (c.toNat / 4096)
  have hthird := toNat_following (c.toNat / 64)
  have hlast := toNat_following c.toNat
  rw [List.foldl_cons, step_lead (hfirst ▸ lead_four hlow (by omega)), List.foldl_cons,
    step_more (by split <;> omega) (by split <;> omega), List.foldl_cons, step_more (by omega) (by omega),
    List.foldl_cons, step_last (by omega) (by omega), hsecond, hthird, hlast, hbits, Char.ofNat_toNat, List.foldl_nil]

/-! ## Texts -/

/-- The bytes of a character are read as that character, and nothing is left over. -/
theorem foldl_step_utf8EncodeChar (c : Char) (read : List Char) :
    (String.utf8EncodeChar c).foldl Decoder.step ⟨none, read⟩ = ⟨none, c :: read⟩ := by
  -- By its size the character takes one byte, two, three or four.
  rcases Nat.lt_or_ge c.toNat 0x80 with hone | hone
  · have hbyte : (UInt8.ofNat c.toNat).toNat = c.toNat := by
      rw [UInt8.toNat_ofNat']
      omega
    rw [utf8EncodeChar_of_ascii hone, List.foldl_cons, List.foldl_nil]
    simp only [Decoder.step, Decoder.begin, lead, hbyte, if_pos hone, Char.ofNat_toNat]
  · unfold String.utf8EncodeChar
    dsimp only
    rw [if_neg (show ¬ c.val.toNat ≤ 127 from Nat.not_le_of_lt hone)]
    rcases Nat.lt_or_ge c.toNat 0x800 with htwo | htwo
    · rw [if_pos (show c.val.toNat ≤ 2047 from Nat.le_of_lt_succ htwo)]
      exact foldl_step_two hone htwo read
    rw [if_neg (show ¬ c.val.toNat ≤ 2047 from Nat.not_le_of_lt htwo)]
    rcases Nat.lt_or_ge c.toNat 0x10000 with hthree | hthree
    · rw [if_pos (show c.val.toNat ≤ 65535 from Nat.le_of_lt_succ hthree)]
      exact foldl_step_three htwo hthree read
    · rw [if_neg (show ¬ c.val.toNat ≤ 65535 from Nat.not_le_of_lt hthree)]
      exact foldl_step_four hthree read

theorem foldl_step_flatMap (s read : List Char) :
    (s.flatMap String.utf8EncodeChar).foldl Decoder.step ⟨none, read⟩ = ⟨none, s.reverse ++ read⟩ := by
  induction s generalizing read with
  | nil => rfl
  | cons c s ih =>
    rw [List.flatMap_cons, List.foldl_append, foldl_step_utf8EncodeChar, ih, List.reverse_cons, List.append_assoc]
    rfl

/-- A text is read back from its bytes. -/
theorem decodeLossy_encode (s : String) : decodeLossy (encode s) = s := by
  rw [decodeLossy, encode_eq, foldl_step_flatMap]
  simp [Decoder.finish]

end Geocoding.Text
