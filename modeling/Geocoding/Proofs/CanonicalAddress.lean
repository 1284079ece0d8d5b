import Geocoding.Address.Key
import Geocoding.Proofs.Rows
import Mathlib.Algebra.Group.Nat.Defs
import Mathlib.Data.List.Forall2

/-!
# What a cache key tells of an address

A key is the digest of a text in which each field stands behind its length. Such a text can be taken apart
again in one way only, whatever the fields hold, so it identifies the canonical fields, and as long as the
digest does not collide, so does the key. Addresses with a key in common are blank together, and on one line
they read the same up to the case of letters.
-/

namespace Geocoding

/-! ## Digests -/

theorem Text.hexDigit_injective {m n : Nat} (hm : m < 16) (hn : n < 16) (h : hexDigit m = hexDigit n) :
    m = n := by
  have hall : ∀ m n : Fin 16, hexDigit m = hexDigit n → m = n := by decide
  exact congrArg Fin.val (hall ⟨m, hm⟩ ⟨n, hn⟩ h)

/-- A number can be read back from enough of its digits. -/
theorem Text.hex_injective {width m n : Nat} (hm : m < 16 ^ width) (hn : n < 16 ^ width)
    (h : hex width m = hex width n) : m = n := by
  induction width generalizing m n with
  | zero => omega
  | succ width ih =>
    rw [Nat.pow_succ] at hm hn
    obtain ⟨hhigh, hlow⟩ := List.append_inj h (by simp)
    have hquot : m / 16 = n / 16 := ih (by omega) (by omega) hhigh
    have hrem : m % 16 = n % 16 := hexDigit_injective (by omega) (by omega) (by simpa using hlow)
    omega

namespace Sha256

theorem State.toList_injective {s t : State} (h : s.toList = t.toList) : s = t := by
  cases s
  cases t
  simpa [State.toList] using h

/-- Digests in hexadecimal are equal only if the digests are. -/
theorem digest_eq_of_hexDigest_eq {m n : Bytes} (h : hexDigest m = hexDigest n) : digest m = digest n := by
  have hwords : ∀ v w : List UInt32, v.length = w.length →
      (v.flatMap fun x => Text.hex 8 x.toNat) = (w.flatMap fun x => Text.hex 8 x.toNat) → v = w := by
    intro v
    induction v with
    | nil =>
      intro w hlength _
      exact (List.length_eq_zero_iff.1 hlength.symm).symm
    | cons x v ih =>
      intro w hlength hdigits
      cases w with
      | nil => cases hlength
      | cons y w =>
        -- Every word has eight digits, so the words are cut off in step.
        obtain ⟨hword, hrest⟩ := List.append_inj hdigits (by simp)
        have hx := Text.hex_injective (m := x.toNat) (n := y.toNat) x.toNat_lt y.toNat_lt hword
        rw [UInt32.toNat_inj.1 hx, ih w (Nat.succ.inj hlength) hrest]
  exact State.toList_injective (hwords _ _ rfl (String.ofList_injective h))

/-- Different messages with the same digest. -/
def Collide (m n : Bytes) : Prop :=
  m ≠ n ∧ digest m = digest n

end Sha256

theorem Text.encode_injective {s t : String} (h : encode s = encode t) : s = t := by
  apply String.toByteArray_inj.1
  exact ByteArray.ext (Array.toList_inj.1 h)

/-! ## Lower case -/

namespace Text

/-- Trimming leaves no text blank that was not. -/
theorem isBlankText_of_trim {s : String} (h : isBlankText (trim s) = true) : isBlankText s = true := by
  simp only [isBlankText, trim, String.toList_ofList, strip, dropEnd, List.all_reverse] at h
  have hstart := all_of_all_dropWhile h
  rw [List.all_reverse] at hstart
  exact all_of_all_dropWhile hstart

theorem lowerChar_ne_nil (c : Char) : lowerChar c ≠ [] := by
  unfold lowerChar
  split
  · simp
  · split
    · simp
    · split <;> simp

theorem lower_eq_empty_iff {s : String} : lower s = "" ↔ s = "" := by
  constructor
  · intro h
    have hnil : lowerAfter [] s.toList = [] := by simpa [lower] using congrArg String.toList h
    -- The lower case of the first character is not empty.
    cases hs : s.toList with
    | nil => exact String.toList_eq_nil_iff.1 hs
    | cons c cs =>
      rw [hs, lowerAfter, List.append_eq_nil_iff] at hnil
      split at hnil
      · cases hnil.1
      · exact absurd hnil.1 (lowerChar_ne_nil c)
  · rintro rfl
    rfl

end Text

/-! ## Canonical text -/

namespace Address

/-- Texts of one size that start a common text are equal. -/
theorem append_inj_of_size {s t u v : String} (h : s ++ u = t ++ v) (hsize : s.utf8ByteSize = t.utf8ByteSize) :
    s = t ∧ u = v := by
  -- One of the two goes on from the other, by something of size zero.
  have hextends : ∀ {s t u v : String} {d : List Char}, t.toList = s.toList ++ d → s ++ u = t ++ v →
      s.utf8ByteSize = t.utf8ByteSize → s = t ∧ u = v := by
    intro s t u v d ht h hsize
    obtain rfl : t = s ++ String.ofList d := String.toList_inj.1 (by simp [ht])
    have hempty : String.ofList d = "" :=
      String.utf8ByteSize_eq_zero_iff.1 (by rw [String.utf8ByteSize_append] at hsize; omega)
    rw [hempty, String.append_empty] at h ⊢
    exact ⟨rfl, String.toList_inj.1 (by simpa using congrArg String.toList h)⟩
  have hlist : s.toList ++ u.toList = t.toList ++ v.toList := by
    simpa using congrArg String.toList h
  obtain ⟨d, ht, -⟩ | ⟨d, hs, -⟩ := List.append_eq_append_iff.1 hlist
  · exact hextends ht h hsize
  · obtain ⟨rfl, rfl⟩ := hextends hs h.symm hsize.symm
    exact ⟨rfl, rfl⟩

theorem colon_not_mem_repr (n : Nat) : ':' ∉ n.repr.toList := by
  intro hmem
  have hdigit := Nat.isDigit_of_mem_toDigits (b := 10) (by decide) (by decide)
    (show ':' ∈ Nat.toDigits 10 n by simpa [Nat.repr] using hmem)
  exact absurd hdigit (by decide)

/-- A field can be told from what stands behind it, whatever the two hold: its size is read off first, which
ends at the first colon. -/
theorem sized_append_inj {s t u v : String} (h : sized s ++ u = sized t ++ v) : s = t ∧ u = v := by
  have hlist : s.utf8ByteSize.repr.toList ++ ':' :: (s ++ u).toList =
      t.utf8ByteSize.repr.toList ++ ':' :: (t ++ v).toList := by
    simpa [sized] using congrArg String.toList h
  have hcut := congrArg (Text.splitAtFirst ':') hlist
  rw [Text.splitAtFirst_append (colon_not_mem_repr _), Text.splitAtFirst_append (colon_not_mem_repr _),
    Option.some.injEq, Prod.mk.injEq] at hcut
  have hsize := Engine.repr_injective (String.toList_inj.1 hcut.1)
  exact append_inj_of_size (String.toList_inj.1 hcut.2) hsize

/-- Fields can be read back from the text in which each stands behind its size. -/
theorem join_sized_injective : Function.Injective fun fields : List String => String.join (fields.map sized) := by
  have hne : ∀ (s : String) (fields : List String), String.join ((s :: fields).map sized) ≠ "" := by
    intro s fields h
    have hnil := congrArg String.toList h
    simp [sized] at hnil
  intro fields fields' h
  simp only at h
  -- Both texts lose their first field in each step, as its size tells where it ends.
  induction fields generalizing fields' with
  | nil =>
    cases fields' with
    | nil => rfl
    | cons t fields' => exact absurd h.symm (hne t fields')
  | cons s fields ih =>
    cases fields' with
    | nil => exact absurd h (hne s fields)
    | cons t fields' =>
      rw [List.map_cons, List.map_cons, String.join_cons, String.join_cons] at h
      obtain ⟨rfl, hrest⟩ := sized_append_inj h
      rw [ih hrest]

theorem canonical_inj {a b : Address} : a.canonical = b.canonical ↔ a.canonicalFields = b.canonicalFields :=
  join_sized_injective.eq_iff

/-- Without a collision, addresses that share a key share their canonical text. -/
theorem canonical_eq_of_key_eq {a b : Address}
    (hcollide : ¬ Sha256.Collide (Text.encode a.canonical) (Text.encode b.canonical)) (h : a.key = b.key) :
    a.canonical = b.canonical := by
  unfold key at h
  by_contra hne
  exact hcollide ⟨fun heq => hne (Text.encode_injective heq), Sha256.digest_eq_of_hexDigest_eq h⟩

/-! ## Addresses on one line -/

/-- The parts that are not blank, trimmed. -/
def presentParts (a : Address) : List String :=
  (a.parts.map Text.trim).filter (· != "")

theorem isBlankText_of_mem {a : Address} {part : String} (h : part ∈ a.presentParts) :
    Text.isBlankText part = false := by
  obtain ⟨hmem, hne⟩ := List.mem_filter.1 h
  obtain ⟨s, -, rfl⟩ := List.mem_map.1 hmem
  rw [← Bool.not_eq_true]
  intro hblank
  exact bne_iff_ne.1 hne (Text.trim_eq_empty_iff.2 (Text.isBlankText_of_trim hblank))

theorem isBlank_iff {a : Address} : a.isBlank = true ↔ a.presentParts = [] := by
  simp [isBlank, presentParts, List.filter_eq_nil_iff, Text.trim_eq_empty_iff]

/-- Addresses with the same canonical text have the same parts, up to the case of letters. -/
theorem presentParts_of_canonicalFields {a b : Address} (h : a.canonicalFields = b.canonicalFields) :
    List.Forall₂ (fun s t => Text.lower s = Text.lower t) a.presentParts b.presentParts := by
  simp only [canonicalFields, canonicalField, List.cons.injEq, and_true] at h
  obtain ⟨hstreet, hcity, hstate, hzip⟩ := h
  have hparts : List.Forall₂ (fun s t => Text.lower s = Text.lower t) (a.parts.map Text.trim)
      (b.parts.map Text.trim) := by
    simp [parts, hstreet, hcity, hstate, hzip]
  -- Lower-casing does not make a part empty, so the same parts are left out on both sides.
  refine List.rel_filter ?_ hparts
  intro s t hst
  simp only [bne_iff_ne, ne_eq]
  rw [← Text.lower_eq_empty_iff, hst, Text.lower_eq_empty_iff]

/-- The text that is hashed identifies street, city and state up to outer blanks and the case of letters, and
the zip code as it stands. So addresses that share a key, the digest not colliding, are blank together, and
their lines are made of as many parts, none of them blank, with the same letters. -/
theorem key_identifies (a b : Address) :
    (a.canonical = b.canonical ↔
      Text.lower (Text.trim a.street) = Text.lower (Text.trim b.street) ∧
      Text.lower (Text.trim a.city) = Text.lower (Text.trim b.city) ∧
      Text.lower (Text.trim a.state) = Text.lower (Text.trim b.state) ∧ a.zip = b.zip) ∧
    (¬ Sha256.Collide (Text.encode a.canonical) (Text.encode b.canonical) → a.key = b.key →
      a.isBlank = b.isBlank ∧
      a.oneLine = String.intercalate ", " a.presentParts ∧ b.oneLine = String.intercalate ", " b.presentParts ∧
      (∀ part ∈ a.presentParts ++ b.presentParts, Text.isBlankText part = false) ∧
      List.Forall₂ (fun s t => Text.lower s = Text.lower t) a.presentParts b.presentParts) := by
  have hfields : a.canonicalFields = b.canonicalFields ↔
      Text.lower (Text.trim a.street) = Text.lower (Text.trim b.street) ∧
      Text.lower (Text.trim a.city) = Text.lower (Text.trim b.city) ∧
      Text.lower (Text.trim a.state) = Text.lower (Text.trim b.state) ∧ a.zip = b.zip := by
    simp [canonicalFields, canonicalField]
  refine ⟨canonical_inj.trans hfields, ?_⟩
  intro hcollide hkey
  have hparts := presentParts_of_canonicalFields (canonical_inj.1 (canonical_eq_of_key_eq hcollide hkey))
  refine ⟨?_, rfl, rfl, ?_, hparts⟩
  · -- An address is blank if it has no parts, and the two have equally many.
    rw [Bool.eq_iff_iff, isBlank_iff, isBlank_iff, ← List.length_eq_zero_iff, hparts.length_eq,
      List.length_eq_zero_iff]
  · intro part hpart
    rcases List.mem_append.1 hpart with h | h <;> exact isBlankText_of_mem h

/-- Two spellings of one address share a key. -/
theorem key_identifies_spellings :
    let a : Address := { street := "100 Main St", city := "Miami", state := "fl", zip := "33131" }
    let b : Address := { street := "100 MAIN ST ", city := " MIAMI", state := "FL", zip := "33131" }
    ¬ Sha256.Collide (Text.encode a.canonical) (Text.encode b.canonical) ∧ a.key = b.key ∧
      a.isBlank = b.isBlank ∧
      a.oneLine = String.intercalate ", " a.presentParts ∧ b.oneLine = String.intercalate ", " b.presentParts ∧
      (∀ part ∈ a.presentParts ++ b.presentParts, Text.isBlankText part = false) ∧
      List.Forall₂ (fun s t => Text.lower s = Text.lower t) a.presentParts b.presentParts := by
  intro a b
  have hcanonical : a.canonical = b.canonical := (key_identifies a b).1.2 (by decide +kernel)
  have hcollide : ¬ Sha256.Collide (Text.encode a.canonical) (Text.encode b.canonical) :=
    fun h => h.1 (congrArg Text.encode hcanonical)
  have hkey : a.key = b.key := by
    unfold key
    rw [hcanonical]
  exact ⟨hcollide, hkey, (key_identifies a b).2 hcollide hkey⟩

end Address

end Geocoding
