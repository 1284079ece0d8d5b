import Geocoding.Engine.Bulk
import Mathlib.Data.List.Nodup

/-!
# Rows and slots

Every address of a batch has one row, and every row has one slot. Slots are filled in any order and perhaps
more than once; what counts is what is written for each row.
-/

namespace Geocoding

@[simp] theorem Address.key_withId (a : Address) (id : String) : (a.withId id).key = a.key := by
  unfold key
  rfl

theorem Address.length_assignIds (addresses : List Address) :
    (assignIds addresses).length = addresses.length := by
  simp [assignIds]

/-- To tag an address does not change where it is. -/
theorem Address.assignIds_getElem? {addresses : List Address} {i : Nat} {a : Address}
    (h : addresses[i]? = some a) : ∃ id, (assignIds addresses)[i]? = some (a.withId id) := by
  have hzip : addresses.zipIdx[i]? = some (a, i) := by simp [List.getElem?_zipIdx, h]
  simp only [assignIds, List.getElem?_map, hzip, Option.map_some, Option.some.injEq]
  split
  · exact ⟨i.repr, rfl⟩
  · exact ⟨a.id, rfl⟩

namespace Engine

variable {addresses : List Address} {row : Row} {i : Nat}

theorem length_rowsOf (addresses : List Address) : (rowsOf addresses).length = addresses.length := by
  simp [rowsOf]

theorem rowsOf_getElem? (addresses : List Address) (i : Nat) :
    (rowsOf addresses)[i]? = addresses[i]?.map fun a => ⟨i, a⟩ := by
  unfold rowsOf
  rw [List.getElem?_map, List.getElem?_zipIdx]
  cases addresses[i]? <;> simp

theorem index_of_getElem? (h : (rowsOf addresses)[i]? = some row) : row.index = i := by
  rw [rowsOf_getElem?, Option.map_eq_some_iff] at h
  obtain ⟨a, -, rfl⟩ := h
  rfl

theorem map_index_rowsOf (addresses : List Address) :
    (rowsOf addresses).map Row.index = List.range addresses.length := by
  unfold rowsOf
  rw [List.map_map]
  have hindex : (Row.index ∘ fun (p : Address × Nat) => (⟨p.2, p.1⟩ : Row)) = Prod.snd := rfl
  rw [hindex, List.zipIdx_map_snd, List.range_eq_range']

theorem nodup_index_rowsOf (addresses : List Address) : ((rowsOf addresses).map Row.index).Nodup := by
  rw [map_index_rowsOf]
  exact List.nodup_range

theorem mem_rowsOf : row ∈ rowsOf addresses ↔ addresses[row.index]? = some row.address := by
  constructor
  · intro h
    obtain ⟨i, hi⟩ := List.getElem?_of_mem h
    rw [rowsOf_getElem?, Option.map_eq_some_iff] at hi
    obtain ⟨a, ha, rfl⟩ := hi
    exact ha
  · intro h
    refine List.mem_of_getElem? (i := row.index) ?_
    rw [rowsOf_getElem?, h]
    rfl

/-- Every address has a row at its position, with its key. -/
theorem row_of_getElem? {a : Address} (h : addresses[i]? = some a) :
    ∃ row, (rowsOf (Address.assignIds addresses))[i]? = some row ∧ row.key = a.key := by
  obtain ⟨id, hid⟩ := Address.assignIds_getElem? h
  exact ⟨⟨i, a.withId id⟩, by rw [rowsOf_getElem?, hid, Option.map_some], Address.key_withId a id⟩

/-- Every row is that of an address, with its key. -/
theorem address_of_mem (h : row ∈ rowsOf (Address.assignIds addresses)) :
    ∃ a ∈ addresses, a.key = row.key := by
  obtain ⟨i, hi⟩ := List.getElem?_of_mem h
  have hlt := (List.getElem?_eq_some_iff.1 hi).1
  rw [length_rowsOf, Address.length_assignIds] at hlt
  obtain ⟨row', hi', hkey⟩ := row_of_getElem? (List.getElem?_eq_getElem hlt)
  rw [hi, Option.some.injEq] at hi'
  exact ⟨_, List.getElem_mem hlt, hi' ▸ hkey.symm⟩

/-- Rows are known by their positions. -/
theorem eq_of_index_eq {rows : List Row} (h : (rows.map Row.index).Nodup) {row row' : Row}
    (hrow : row ∈ rows) (hrow' : row' ∈ rows) (heq : row.index = row'.index) : row = row' :=
  List.inj_on_of_nodup_map h hrow hrow' heq

/-- Rows are submitted under tags of their own. -/
theorem repr_injective : Function.Injective Nat.repr := by
  intro i j h
  have hdigits : Nat.toDigits 10 i = Nat.toDigits 10 j := by
    simpa [Nat.repr] using congrArg String.toList h
  -- A number can be read back from its digits.
  rw [← Nat.ofDigitChars_ten_toDigits (n := i), hdigits, Nat.ofDigitChars_ten_toDigits]

theorem nodup_id_submitted {rows : List Row} (h : (rows.map Row.index).Nodup) :
    ((rows.map submitted).map Address.id).Nodup := by
  have hid : (rows.map submitted).map Address.id = (rows.map Row.index).map Nat.repr := by
    simp [submitted, Address.withId]
  rw [hid]
  exact h.map repr_injective

theorem map_key_rowsOf (addresses : List Address) :
    (rowsOf (Address.assignIds addresses)).map Row.key = addresses.map Address.key := by
  apply List.ext_getElem?
  intro i
  rw [List.getElem?_map, List.getElem?_map]
  cases h : addresses[i]? with
  | none =>
    rw [List.getElem?_eq_none_iff] at h
    rw [List.getElem?_eq_none (by rw [length_rowsOf, Address.length_assignIds]; exact h)]
    rfl
  | some a =>
    obtain ⟨row, hrow, hkey⟩ := row_of_getElem? h
    rw [hrow, Option.map_some, Option.map_some, hkey]

/-! ## Settled rows -/

theorem lookup_getD_of_forall {l : List (Nat × String)} {i : Nat} {source : String}
    (h : ∀ p ∈ l, p.1 = i → p.2 = source) (hsome : source ≠ "" → ∃ p ∈ l, p.1 = i) :
    (l.lookup i).getD "" = source := by
  induction l with
  | nil =>
    by_contra hne
    obtain ⟨p, hp, -⟩ := hsome fun hempty => hne (by simp [hempty])
    cases hp
  | cons p l ih =>
    rw [List.lookup_cons]
    by_cases hp : p.1 = i
    · simp [← hp, h p List.mem_cons_self hp]
    · rw [beq_false_of_ne (Ne.symm hp)]
      apply ih (fun q hq => h q (List.mem_cons_of_mem _ hq))
      intro hne
      obtain ⟨q, hq, heq⟩ := hsome hne
      rcases List.mem_cons.1 hq with rfl | hq
      · exact absurd heq hp
      · exact ⟨q, hq, heq⟩

theorem mem_resolved {results : List (Row × Outcome)} {row : Row} {r : Resolution} :
    (row, r) ∈ resolved results ↔ (row, .ok (some r)) ∈ results := by
  unfold resolved
  rw [List.mem_filterMap]
  constructor
  · rintro ⟨⟨row', outcome⟩, hmem, h⟩
    simp only at h
    split at h
    · cases h
      exact hmem
    · cases h
  · intro h
    exact ⟨_, h, rfl⟩

theorem mem_resultsIn {rows : List ((Row × Resolution) ⊕ Job)} {w : Row × Resolution} :
    w ∈ resultsIn rows ↔ .inl w ∈ rows := by
  simp [resultsIn, List.mem_filterMap, Sum.getLeft?_eq_some_iff]

theorem mem_jobsIn {rows : List ((Row × Resolution) ⊕ Job)} {j : Job} :
    j ∈ jobsIn rows ↔ .inr j ∈ rows := by
  simp [jobsIn, List.mem_filterMap, Sum.getRight?_eq_some_iff]

/-! ## Slots -/

section Fill

variable {writes : List (Row × Resolution)}

/-- A write does not touch the slots of other rows, so a slot has what is written for its row, if all that
is written for it is the same. -/
theorem foldl_setIfInBounds_getElem? {r : Resolution} (h : ∀ w ∈ writes, w.1.index = i → w.2 = r)
    (slots : Array Resolution) (hi : i < slots.size) :
    (writes.foldl (fun slots w => slots.setIfInBounds w.1.index w.2) slots)[i]? =
      if ∃ w ∈ writes, w.1.index = i then some r else slots[i]? := by
  induction writes generalizing slots with
  | nil => simp
  | cons w writes ih =>
    rw [List.foldl_cons, ih (fun w hw => h w (List.mem_cons_of_mem _ hw)) _ (by simpa using hi)]
    -- A later write for the same slot hides the first one, and has the same value.
    by_cases hlater : ∃ w ∈ writes, w.1.index = i
    · obtain ⟨w', hw', heq⟩ := hlater
      rw [if_pos ⟨w', hw', heq⟩, if_pos ⟨w', List.mem_cons_of_mem _ hw', heq⟩]
    · rw [if_neg hlater]
      by_cases hw : w.1.index = i
      · rw [if_pos ⟨w, List.mem_cons_self, hw⟩, ← h w List.mem_cons_self hw, hw]
        simp [hi]
      · have hnone : ¬ ∃ w' ∈ w :: writes, w'.1.index = i := by
          rintro ⟨w', hw', heq⟩
          rcases List.mem_cons.1 hw' with rfl | hw'
          · exact hw heq
          · exact hlater ⟨w', hw', heq⟩
        rw [if_neg hnone, Array.getElem?_setIfInBounds_ne hw]

theorem fill_getElem? {r : Resolution} {size : Nat} (h : ∀ w ∈ writes, w.1.index = i → w.2 = r)
    (hi : i < size) :
    (fill size writes)[i]? = if ∃ w ∈ writes, w.1.index = i then some r else some {} := by
  unfold fill
  rw [Array.getElem?_toList, foldl_setIfInBounds_getElem? h _ (by simpa using hi)]
  simp [hi]

/-- Where every row is written once, its slot has what was written. -/
theorem fill_getElem?_of_perm (h : (writes.map Prod.fst).Perm (rowsOf addresses)) {w : Row × Resolution}
    (hw : w ∈ writes) : (fill (rowsOf addresses).length writes)[w.1.index]? = some w.2 := by
  have hindex : (writes.map fun w => w.1.index).Nodup := by
    have hnodup := (h.map Row.index).nodup_iff.2 (nodup_index_rowsOf addresses)
    rwa [List.map_map] at hnodup
  have honly : ∀ w' ∈ writes, w'.1.index = w.1.index → w'.2 = w.2 := fun w' hw' heq =>
    congrArg Prod.snd (List.inj_on_of_nodup_map hindex hw' hw heq)
  have hlt : w.1.index < (rowsOf addresses).length := by
    rw [length_rowsOf]
    exact (List.getElem?_eq_some_iff.1 (mem_rowsOf.1 (h.subset (List.mem_map_of_mem hw)))).1
  rw [fill_getElem? honly hlt, if_pos ⟨w, hw, rfl⟩]

variable {value : Row → Resolution}

/-- What is written is right: each write is that of a row, with the value of the row. -/
def Right (rows : List Row) (value : Row → Resolution) (writes : List (Row × Resolution)) : Prop :=
  ∀ w ∈ writes, w.1 ∈ rows ∧ w.2 = value w.1

theorem Right.append {rows : List Row} {writes' : List (Row × Resolution)} (h : Right rows value writes)
    (h' : Right rows value writes') : Right rows value (writes ++ writes') := by
  intro w hw
  exact (List.mem_append.1 hw).elim (h w) (h' w)

theorem Right.mono {rows rows' : List Row} (h : Right rows value writes) (hrows : rows ⊆ rows') :
    Right rows' value writes :=
  fun w hw => ⟨hrows (h w hw).1, (h w hw).2⟩

theorem Right.slot (h : Right (rowsOf addresses) value writes)
    (hrow : row ∈ rowsOf addresses) :
    (fill (rowsOf addresses).length writes)[row.index]? =
      if (row, value row) ∈ writes then some (value row) else some {} := by
  have hwrite : ∀ w ∈ writes, w.1.index = row.index → w.1 = row := fun w hw heq =>
    eq_of_index_eq (nodup_index_rowsOf addresses) (h w hw).1 hrow heq
  have hlt : row.index < (rowsOf addresses).length := by
    rw [length_rowsOf]
    exact (List.getElem?_eq_some_iff.1 (mem_rowsOf.1 hrow)).1
  rw [fill_getElem? (fun w hw heq => (h w hw).2.trans (congrArg value (hwrite w hw heq))) hlt]
  congr 1
  refine propext ⟨?_, fun hw => ⟨_, hw, rfl⟩⟩
  rintro ⟨w, hw, heq⟩
  have hrow := hwrite w hw heq
  rw [← hrow, ← (h w hw).2]
  exact hw

/-- Where nothing wrong is written, every slot has the value of its row or the default. -/
theorem Right.getElem?_fill {slot : Resolution} (h : Right (rowsOf addresses) value writes)
    (hslot : (fill (rowsOf addresses).length writes)[i]? = some slot) :
    slot = {} ∨ ((rowsOf addresses).map value)[i]? = some slot := by
  have hlt : i < (rowsOf addresses).length := by
    have hlt := (List.getElem?_eq_some_iff.1 hslot).1
    rwa [length_fill] at hlt
  obtain ⟨row, hrow⟩ : ∃ row, (rowsOf addresses)[i]? = some row := ⟨_, List.getElem?_eq_getElem hlt⟩
  have hindex := index_of_getElem? hrow
  rw [← hindex, h.slot (List.mem_of_getElem? hrow)] at hslot
  split at hslot
  · right
    rw [List.getElem?_map, hrow]
    exact hslot
  · exact .inl (Option.some.inj hslot).symm

/-- Where something is written for every row, and nothing wrong, every slot has the value of its row. -/
theorem Right.fill_eq (h : Right (rowsOf addresses) value writes)
    (hall : ∀ row ∈ rowsOf addresses, (row, value row) ∈ writes) :
    fill (rowsOf addresses).length writes = (rowsOf addresses).map value := by
  apply List.ext_getElem?
  intro i
  rw [List.getElem?_map]
  cases hrow : (rowsOf addresses)[i]? with
  | none =>
    rw [List.getElem?_eq_none_iff, ← length_fill (rowsOf addresses).length writes] at hrow
    rw [List.getElem?_eq_none_iff.2 hrow]
    rfl
  | some row =>
    have hmem := List.mem_of_getElem? hrow
    rw [← index_of_getElem? hrow, h.slot hmem, if_pos (hall row hmem)]
    rfl

end Fill

end Engine

end Geocoding
