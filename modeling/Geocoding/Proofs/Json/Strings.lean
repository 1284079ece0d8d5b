import Geocoding.Json.Reader
import Geocoding.Json.Writer

/-!
# Strings in JSON, read back

A string in quotes is read back as it was, whatever stands behind it. Most characters stand for themselves, and so
do all bytes of those that have several. A text in quotes holds no control characters.
-/

namespace Geocoding

/-! ## Bytes of a text -/

namespace Text

theorem decode?_encode (s : String) : decode? (encode s) = some s := by
  unfold decode? encode String.fromUTF8?
  rw [Array.toArray_toList, String.toUTF8_eq_toByteArray, dif_pos s.isValidUTF8]
  rfl

theorem encode_append (s t : String) : encode (s ++ t) = encode s ++ encode t := by
  simp [encode, String.toByteArray_append, ByteArray.data_append]

theorem encode_ofList (cs : List Char) : encode (String.ofList cs) = cs.flatMap String.utf8EncodeChar := by
  simp [encode, String.toByteArray_ofList, List.utf8Encode]

theorem encode_eq (s : String) : encode s = s.toList.flatMap String.utf8EncodeChar := by
  rw [← encode_ofList, String.ofList_toList]

theorem utf8EncodeChar_of_ascii {c : Char} (h : c.toNat < 128) : String.utf8EncodeChar c = [UInt8.ofNat c.toNat] :=
  if_pos (Nat.le_of_lt_succ h)

/-- The bytes of other characters are no ASCII bytes. -/
theorem le_of_mem_utf8EncodeChar {c : Char} (h : 128 ≤ c.toNat) {b : UInt8} (hb : b ∈ String.utf8EncodeChar c) :
    128 ≤ b.toNat := by
  have hlong : ¬ c.val.toNat ≤ 127 := Nat.not_le_of_lt h
  simp only [String.utf8EncodeChar, hlong, if_false] at hb
  split at hb
  · simp only [List.mem_cons, List.not_mem_nil, or_false] at hb
    obtain rfl | rfl := hb <;> simp <;> omega
  · split at hb <;> simp only [List.mem_cons, List.not_mem_nil, or_false] at hb
    · obtain rfl | rfl | rfl := hb <;> simp <;> omega
    · obtain rfl | rfl | rfl | rfl := hb <;> simp <;> omega

end Text

namespace Json

/-! ## Pieces of a string -/

/-- The byte stands for itself in a string. -/
def Literal (b : UInt8) : Prop :=
  b ≠ 0x22 ∧ b ≠ 0x5C ∧ ¬ b < 0x20

theorem literal_of_toNat {b : UInt8} (hquote : b.toNat ≠ 0x22) (hslash : b.toNat ≠ 0x5C) (hlow : 0x20 ≤ b.toNat) :
    Literal b :=
  ⟨fun h => hquote (h ▸ rfl), fun h => hslash (h ▸ rfl), fun h => Nat.not_lt.2 hlow (UInt8.lt_iff_toNat_lt.1 h)⟩

theorem pieces_byte {b : UInt8} (h : Literal b) (acc : List Piece) (rest : Bytes) :
    pieces acc (b :: rest) = pieces (.byte b :: acc) rest := by
  obtain ⟨hquote, hslash, hlow⟩ := h
  rw [pieces.eq_def]
  simp [hquote, hslash, hlow]

theorem pieces_escaped {e b : UInt8} (hunit : e ≠ 0x75) (h : escaped? e = some b) (acc : List Piece) (rest : Bytes) :
    pieces acc (0x5C :: e :: rest) = pieces (.byte b :: acc) rest := by
  rw [pieces.eq_def]
  simp [hunit, h]

theorem pieces_unit {h₁ h₂ h₃ h₄ : UInt8} {u : Nat} (h : unit? h₁ h₂ h₃ h₄ = some u) (acc : List Piece)
    (rest : Bytes) :
    pieces acc (0x5C :: 0x75 :: h₁ :: h₂ :: h₃ :: h₄ :: rest) = pieces (.unit u :: acc) rest := by
  rw [pieces.eq_def]
  simp [h]

theorem pieces_quote (acc : List Piece) (rest : Bytes) : pieces acc (0x22 :: rest) = some (acc.reverse, rest) := by
  rw [pieces.eq_def]
  rfl

theorem pieces_literal {bytes : Bytes} (h : ∀ b ∈ bytes, Literal b) (acc : List Piece) (rest : Bytes) :
    pieces acc (bytes ++ rest) = pieces ((bytes.map Piece.byte).reverse ++ acc) rest := by
  induction bytes generalizing acc with
  | nil => rfl
  | cons b bytes ih =>
    obtain ⟨hb, hbytes⟩ := List.forall_mem_cons.1 h
    rw [List.cons_append, pieces_byte hb, ih hbytes]
    simp

theorem piecesToBytes?_literal (bytes : Bytes) (ps : List Piece) :
    piecesToBytes? (bytes.map Piece.byte ++ ps) = (piecesToBytes? ps).map (bytes ++ ·) := by
  induction bytes with
  | nil => simp
  | cons b bytes ih =>
    rw [List.map_cons, List.cons_append, piecesToBytes?, ih]
    cases piecesToBytes? ps <;> rfl

/-- A text is written as the bytes, if the reader makes pieces of them that it puts together to the text. -/
def WrittenAs (text bytes : Bytes) : Prop :=
  ∃ ps, (∀ acc rest, pieces acc (bytes ++ rest) = pieces (ps.reverse ++ acc) rest) ∧
    ∀ qs, piecesToBytes? (ps ++ qs) = (piecesToBytes? qs).map (text ++ ·)

theorem WrittenAs.append {text text' bytes bytes' : Bytes} (h : WrittenAs text bytes) (h' : WrittenAs text' bytes') :
    WrittenAs (text ++ text') (bytes ++ bytes') := by
  obtain ⟨ps, hpieces, hbytes⟩ := h
  obtain ⟨ps', hpieces', hbytes'⟩ := h'
  refine ⟨ps ++ ps', fun acc rest => ?_, fun qs => ?_⟩
  · rw [List.append_assoc, hpieces, hpieces', List.reverse_append, List.append_assoc]
  · rw [List.append_assoc, hbytes, hbytes']
    cases piecesToBytes? qs <;> simp

theorem writtenAs_literal {bytes : Bytes} (h : ∀ b ∈ bytes, Literal b) : WrittenAs bytes bytes :=
  ⟨_, fun acc rest => pieces_literal h acc rest, fun qs => piecesToBytes?_literal bytes qs⟩

/-- A letter behind a backslash. -/
theorem writtenAs_escaped {e b : UInt8} (hunit : e ≠ 0x75) (h : escaped? e = some b) : WrittenAs [b] [0x5C, e] :=
  ⟨[.byte b], fun acc rest => pieces_escaped hunit h acc rest, fun qs => piecesToBytes?_literal [b] qs⟩

theorem hexDigit_reads {d : Nat} (h : d < 16) :
    ∃ b, String.utf8EncodeChar (Text.hexDigit d) = [b] ∧ hexByte? b = some d := by
  have hall : ∀ d : Fin 16, String.utf8EncodeChar (Text.hexDigit d) = [UInt8.ofNat (Text.hexDigit d).toNat] ∧
      hexByte? (UInt8.ofNat (Text.hexDigit d).toNat) = some d.val := by
    decide
  exact ⟨_, hall ⟨d, h⟩⟩

/-- A control character by its number. -/
theorem writtenAs_unit {n : Nat} (h : n < 32) :
    WrittenAs [UInt8.ofNat n] (('\\' :: 'u' :: Text.hex 4 n).flatMap String.utf8EncodeChar) := by
  obtain ⟨h₁, hbytes₁, hread₁⟩ := hexDigit_reads (d := n / 16 / 16 / 16 % 16) (by omega)
  obtain ⟨h₂, hbytes₂, hread₂⟩ := hexDigit_reads (d := n / 16 / 16 % 16) (by omega)
  obtain ⟨h₃, hbytes₃, hread₃⟩ := hexDigit_reads (d := n / 16 % 16) (by omega)
  obtain ⟨h₄, hbytes₄, hread₄⟩ := hexDigit_reads (d := n % 16) (by omega)
  have hbytes : ('\\' :: 'u' :: Text.hex 4 n).flatMap String.utf8EncodeChar = [0x5C, 0x75, h₁, h₂, h₃, h₄] := by
    simp only [Text.hex, List.nil_append, List.cons_append, List.flatMap_cons,
      List.flatMap_nil, hbytes₁, hbytes₂, hbytes₃, hbytes₄]
    rfl
  have hunit : unit? h₁ h₂ h₃ h₄ = some n := by
    simp only [unit?, hread₁, hread₂, hread₃, hread₄, Option.bind_eq_bind, Option.bind_some, Option.some.injEq]
    omega
  have hchar : charBytes n = [UInt8.ofNat n] := by
    have hall : ∀ n : Fin 32, charBytes n = [UInt8.ofNat n] := by decide
    exact hall ⟨n, h⟩
  have hscalar : n < 0xD800 ∨ 0xE000 ≤ n := by omega
  rw [hbytes]
  refine ⟨[.unit n], fun acc rest => pieces_unit hunit acc rest, fun qs => ?_⟩
  rw [List.cons_append, List.nil_append, piecesToBytes?.eq_def]
  simp only [if_pos hscalar, hchar]

theorem writtenAs_quoteChar (c : Char) :
    WrittenAs (String.utf8EncodeChar c) ((quoteChar c).flatMap String.utf8EncodeChar) := by
  -- Seven characters have short escapes; then come the other control characters, and then what stands for itself.
  unfold quoteChar
  split
  case isTrue h => subst h; exact writtenAs_escaped (e := 0x22) (by decide) rfl
  split
  case isTrue h => subst h; exact writtenAs_escaped (e := 0x5C) (by decide) rfl
  split
  case isTrue h => subst h; exact writtenAs_escaped (e := 0x62) (by decide) rfl
  split
  case isTrue h => subst h; exact writtenAs_escaped (e := 0x66) (by decide) rfl
  split
  case isTrue h => subst h; exact writtenAs_escaped (e := 0x6E) (by decide) rfl
  split
  case isTrue h => subst h; exact writtenAs_escaped (e := 0x72) (by decide) rfl
  split
  case isTrue h => subst h; exact writtenAs_escaped (e := 0x74) (by decide) rfl
  split
  case isTrue h =>
    rw [Text.utf8EncodeChar_of_ascii (by omega)]
    exact writtenAs_unit h
  case isFalse hquote hslash _ _ _ _ _ hlow =>
    rw [List.flatMap_singleton]
    apply writtenAs_literal
    -- No byte of such a character is a quote, a backslash or a control character.
    intro b hb
    by_cases hascii : c.toNat < 128
    · rw [Text.utf8EncodeChar_of_ascii hascii, List.mem_singleton] at hb
      have hval : b.toNat = c.toNat := by
        rw [hb, UInt8.toNat_ofNat']
        omega
      rw [← hval] at hlow
      exact literal_of_toNat (fun h => hquote (Char.toNat_inj.1 (hval ▸ h)))
        (fun h => hslash (Char.toNat_inj.1 (hval ▸ h))) (Nat.le_of_not_lt hlow)
    · have hhigh := Text.le_of_mem_utf8EncodeChar (Nat.le_of_not_lt hascii) hb
      exact literal_of_toNat (by omega) (by omega) (by omega)

theorem writtenAs_quoteChars (cs : List Char) :
    WrittenAs (cs.flatMap String.utf8EncodeChar) ((cs.flatMap quoteChar).flatMap String.utf8EncodeChar) := by
  induction cs with
  | nil => exact writtenAs_literal (by simp)
  | cons c cs ih =>
    simp only [List.flatMap_cons, List.flatMap_append]
    exact (writtenAs_quoteChar c).append ih

/-- A string in quotes is read back as it was. -/
theorem readString_quote (s : String) (rest : Bytes) :
    ∃ body, Text.encode (quote s) = 0x22 :: body ∧ readString (body ++ rest) = some (some s, rest) := by
  obtain ⟨ps, hpieces, hbytes⟩ := writtenAs_quoteChars s.toList
  refine ⟨(s.toList.flatMap quoteChar).flatMap String.utf8EncodeChar ++ [0x22], ?_, ?_⟩
  · rw [quote, Text.encode_ofList]
    simp only [List.flatMap_cons, List.flatMap_append, List.flatMap_nil, List.append_nil]
    rfl
  · have htext : piecesToText? ps = some s := by
      have hall := hbytes []
      rw [List.append_nil] at hall
      rw [piecesToText?, hall, ← Text.encode_eq]
      simpa [piecesToBytes?] using Text.decode?_encode s
    rw [readString, List.append_assoc, hpieces, List.append_nil, List.singleton_append, pieces_quote]
    simp [htext]

/-! ## No control characters -/

/-- No character of the text is a control character. -/
def Printable (s : String) : Prop :=
  ∀ c ∈ s.toList, 0x20 ≤ c.toNat

instance (s : String) : Decidable (Printable s) :=
  List.decidableBAll (fun c : Char => 0x20 ≤ c.toNat) s.toList

theorem Printable.append {s t : String} (hs : Printable s) (ht : Printable t) : Printable (s ++ t) := by
  rw [Printable, String.toList_append]
  exact List.forall_mem_append.2 ⟨hs, ht⟩

theorem printable_quoteChar (c : Char) : Printable (String.ofList (quoteChar c)) := by
  unfold quoteChar
  iterate 7
    split
    · decide
  split
  next hlow =>
    have hall : ∀ n : Fin 32, Printable (String.ofList ('\\' :: 'u' :: Text.hex 4 n)) := by decide
    exact hall ⟨c.toNat, hlow⟩
  next hhigh =>
    rw [Printable, String.toList_ofList]
    exact List.forall_mem_singleton.2 (Nat.le_of_not_lt hhigh)

theorem printable_quote (s : String) : Printable (quote s) := by
  have hmark : 0x20 ≤ '"'.toNat := by decide
  rw [Printable, quote, String.toList_ofList]
  refine List.forall_mem_cons.2 ⟨hmark, List.forall_mem_append.2 ⟨fun d hd => ?_, List.forall_mem_singleton.2 hmark⟩⟩
  obtain ⟨c, -, hd⟩ := List.mem_flatMap.1 hd
  exact printable_quoteChar c d (by rwa [String.toList_ofList])

end Json

end Geocoding
