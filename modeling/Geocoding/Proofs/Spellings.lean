import Geocoding.Proofs.LowerCase

/-!
# Spellings of an address

One address may be spelled in many ways: in capitals or not, and with blanks around its fields. All of them have the
same canonical form, which is one of the spellings itself, and so they share a key. This holds for whole fields at a
time, since how a letter is lower-cased may hang on the letters around it.
-/

namespace Geocoding

/-- The second text is the first one with the case of any ASCII letters changed and any blanks put around it. -/
def Text.Respelled (s t : String) : Prop :=
  ∃ before core after : String, isBlankText before = true ∧ isBlankText after = true ∧
    eqIgnoringCase s core = true ∧ t = before ++ core ++ after

theorem Text.trim_surround {before s after : String} (hbefore : isBlankText before = true)
    (hafter : isBlankText after = true) : trim (before ++ s ++ after) = trim s := by
  rw [trim, trim, String.toList_append, String.toList_append, strip_surround hbefore hafter]

namespace Address

theorem canonicalField_lowerAscii (s : String) : canonicalField (Text.lowerAscii s) = canonicalField s := by
  rw [canonicalField, Text.trim_lowerAscii, Text.lower_lowerAscii, canonicalField]

/-- All spellings of a field have one canonical form. -/
theorem canonicalField_of_respelled {s t : String} (h : Text.Respelled s t) : canonicalField t = canonicalField s := by
  obtain ⟨before, core, after, hbefore, hafter, hcase, rfl⟩ := h
  have hsame : Text.lowerAscii s = Text.lowerAscii core := eq_of_beq hcase
  calc canonicalField (before ++ core ++ after)
      = canonicalField core := by rw [canonicalField, Text.trim_surround hbefore hafter, canonicalField]
    _ = canonicalField (Text.lowerAscii core) := (canonicalField_lowerAscii core).symm
    _ = canonicalField (Text.lowerAscii s) := by rw [hsame]
    _ = canonicalField s := canonicalField_lowerAscii s

/-- The canonical form of a field is its own canonical form. -/
theorem canonicalField_canonicalField (s : String) : canonicalField (canonicalField s) = canonicalField s := by
  simp only [canonicalField, Text.trim_lower_trim, Text.lower_lower]

theorem key_eq_of_canonicalFields {a b : Address} (h : a.canonicalFields = b.canonicalFields) : a.key = b.key := by
  unfold key canonical
  rw [h]

/-- The key of an address is that of all its spellings, and that of its canonical form. -/
theorem key_ignores_spelling (a : Address) :
    (∀ street city state : String, Text.Respelled a.street street → Text.Respelled a.city city →
      Text.Respelled a.state state → key { a with street, city, state } = a.key) ∧
    key { a with
      street := Text.lower (Text.trim a.street)
      city := Text.lower (Text.trim a.city)
      state := Text.lower (Text.trim a.state) } = a.key := by
  constructor
  · intro street city state hstreet hcity hstate
    apply key_eq_of_canonicalFields
    simp only [canonicalFields, canonicalField_of_respelled hstreet, canonicalField_of_respelled hcity,
      canonicalField_of_respelled hstate]
  · apply key_eq_of_canonicalFields
    have hstays : ∀ s, canonicalField (Text.lower (Text.trim s)) = canonicalField s := canonicalField_canonicalField
    simp only [canonicalFields, hstays]

/-- A sigma at the end of a word, letters on both sides of it in the other case, and the dotted capital I. -/
theorem key_ignores_spelling_sigma :
    let a : Address := { street := "5 odos aΣ", city := "İzmir", state := "GR", zip := "35000" }
    let street := "\u2003\n5 ODOS AΣ\u3000"
    let city := "İZMIR"
    let state := "\tgR "
    Text.Respelled a.street street ∧ Text.Respelled a.city city ∧ Text.Respelled a.state state ∧
      key { a with street, city, state } = a.key := by
  intro a street city state
  have hstreet : Text.Respelled a.street street :=
    ⟨"\u2003\n", "5 ODOS AΣ", "\u3000", by decide, by decide, by decide, by decide⟩
  have hcity : Text.Respelled a.city city :=
    ⟨"", "İZMIR", "", by decide, by decide, by decide, by decide⟩
  have hstate : Text.Respelled a.state state :=
    ⟨"\t", "gR", " ", by decide, by decide, by decide, by decide⟩
  exact ⟨hstreet, hcity, hstate, (key_ignores_spelling a).1 street city state hstreet hcity hstate⟩

end Address

end Geocoding
