import Geocoding.Text.Blank
import Mathlib.Data.List.DropRight

/-!
# Trimming

Trimming takes the blanks off both ends of a text and nothing else. What is left has no blank at either end, and a
text of which that is so stays as it is; so blanks put around a text make no difference to it once it is trimmed.
-/

namespace Geocoding.Text

/-- A text with no blank at either end. -/
structure Trimmed (s : List Char) : Prop where
  head : ∀ c ∈ s.head?, isBlank c = false
  last : ∀ c ∈ s.getLast?, isBlank c = false

/-- Dropping at the end is the library's. -/
theorem dropEnd_eq_rdropWhile (p : Char → Bool) (s : List Char) : dropEnd p s = s.rdropWhile p := rfl

theorem trimmed_strip (s : List Char) : Trimmed (strip s) := by
  have hend : strip s = (s.dropWhile isBlank).rdropWhile isBlank := rfl
  by_cases hnil : strip s = []
  · rw [hnil]
    exact ⟨nofun, nofun⟩
  · constructor
    · intro c hc
      -- What is left starts where the blanks at the start end.
      have hstart : (s.dropWhile isBlank).head? = some c := by
        obtain ⟨rest, hrest⟩ := List.rdropWhile_prefix isBlank (s.dropWhile isBlank)
        rw [← hend] at hrest
        rw [← hrest, List.head?_append, hc]
        rfl
      have hnot := List.head?_dropWhile_not isBlank s
      rwa [hstart] at hnot
    · intro c hc
      rw [hend] at hnil hc
      have hlast := List.rdropWhile_last_not isBlank (s.dropWhile isBlank) hnil
      rw [List.getLast?_eq_some_getLast hnil, Option.mem_some_iff] at hc
      rwa [hc, Bool.not_eq_true] at hlast

theorem strip_eq_self {s : List Char} (h : Trimmed s) : strip s = s := by
  have hhead : s.dropWhile isBlank = s := by
    cases s with
    | nil => rfl
    | cons c s => exact List.dropWhile_cons_of_neg (Bool.not_eq_true _ ▸ h.head c rfl)
  rw [strip, hhead, dropEnd_eq_rdropWhile, List.rdropWhile_eq_self_iff]
  intro hne
  rw [Bool.not_eq_true]
  exact h.last _ (List.getLast?_eq_some_getLast hne)

/-- Blanks around a text are trimmed off. -/
theorem strip_surround {before s after : List Char} (hbefore : before.all isBlank = true)
    (hafter : after.all isBlank = true) : strip (before ++ s ++ after) = strip s := by
  have hend : ∀ t, dropEnd isBlank (t ++ after) = dropEnd isBlank t := by
    intro t
    rw [dropEnd, List.reverse_append, List.dropWhile_append_of_pos, dropEnd]
    exact fun c hc => List.all_eq_true.1 hafter c (List.mem_reverse.1 hc)
  rw [strip, List.append_assoc, List.dropWhile_append_of_pos (List.all_eq_true.1 hbefore), List.dropWhile_append]
  split
  · -- A text of blanks only, and so is what stands behind it.
    next hblank =>
    rw [dropWhile_eq_nil_iff_all.2 hafter, strip, List.isEmpty_iff.1 hblank]
  · exact hend _

/-- Trimming twice is trimming once. -/
theorem trim_trim (s : String) : trim (trim s) = trim s := by
  rw [trim, trim, String.toList_ofList, strip_eq_self (trimmed_strip _)]

end Geocoding.Text
