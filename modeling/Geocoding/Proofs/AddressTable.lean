import Geocoding.Address.Table
import Mathlib.Data.List.Forall2

/-!
# What a table of addresses says

Which addresses stand in a table, said of its header and its records and not of how they are read. A table is read
exactly if each of its records stands for an address, and then it is read as these addresses, in order.
-/

namespace Geocoding

/-- A list has one element with a property, at a position. -/
theorem filter_eq_singleton_iff {α : Type} {p : α → Bool} {l : List α} {a : α} :
    l.filter p = [a] ↔
      ∃ i : Nat, l[i]? = some a ∧ p a = true ∧ ∀ (j : Nat) b, l[j]? = some b → p b = true → j = i := by
  induction l with
  | nil => simp
  | cons c l ih =>
    by_cases hc : p c = true
    · rw [List.filter_cons_of_pos hc]
      constructor
      · intro h
        obtain ⟨rfl, hnone⟩ := List.cons.inj h
        refine ⟨0, rfl, hc, fun j b hj hb => ?_⟩
        cases j with
        | zero => rfl
        | succ j => exact absurd hb (List.filter_eq_nil_iff.1 hnone b (List.mem_of_getElem? hj))
      · rintro ⟨i, hi, ha, honly⟩
        -- The head has the property, so the one position can only be the first.
        obtain rfl := honly 0 c rfl hc
        obtain rfl := Option.some.inj hi
        have hnone : l.filter p = [] := by
          refine List.filter_eq_nil_iff.2 fun b hmem hb => ?_
          obtain ⟨j, hj⟩ := List.mem_iff_getElem?.1 hmem
          exact absurd (honly (j + 1) b hj hb) (Nat.succ_ne_zero j)
        rw [hnone]
    · rw [List.filter_cons_of_neg hc, ih]
      constructor
      · rintro ⟨i, hi, ha, honly⟩
        refine ⟨i + 1, hi, ha, fun j b hj hb => ?_⟩
        cases j with
        | zero => exact absurd (Option.some.inj hj ▸ hb) hc
        | succ j => rw [honly j b hj hb]
      · rintro ⟨i, hi, ha, honly⟩
        cases i with
        | zero => exact absurd (Option.some.inj hi ▸ ha) hc
        | succ i => exact ⟨i, hi, ha, fun j b hj hb => Nat.succ.inj (honly (j + 1) b hj hb)⟩

theorem forall_exists_iff_exists_forall₂ {α β : Type} {R : α → β → Prop} {l : List α} :
    (∀ x ∈ l, ∃ y, R x y) ↔ ∃ l', List.Forall₂ R l l' := by
  induction l with
  | nil => simp
  | cons x l ih =>
    simp only [List.forall_mem_cons, ih, List.forall₂_cons_left_iff]
    constructor
    · rintro ⟨⟨y, hy⟩, l', hl'⟩
      exact ⟨y :: l', y, l', hy, hl', rfl⟩
    · rintro ⟨_, y, l', hy, hl', -⟩
      exact ⟨⟨y, hy⟩, l', hl'⟩

namespace Address

/-! ## Columns -/

/-- At this position the header has one of the names; blanks around it do not count. -/
def Names (header names : List String) (i : Nat) : Prop :=
  ∃ name, header[i]? = some name ∧ Text.trim name ∈ names

/-- What a record has in the column with one of the names, without outer blanks. It has a blank in a column that is
missing, and the column must not be there twice. -/
inductive Holds (header record names : List String) : String → Prop where
  | missing (h : ∀ i, ¬ Names header names i) : Holds header record names ""
  | column {i : Nat} {text : String} (column : Names header names i) (only : ∀ j, Names header names j → j = i)
      (field : record[i]? = some text) : Holds header record names (Text.trim text)

section Columns

variable {header record names : List String} {text : String}

/-- The columns with one of the names, with what the record has in them. -/
def columnsOf (header record names : List String) : List (String × String) :=
  ((trimRecord header).zip (trimRecord record)).filter fun (name, _) => names.contains name

theorem zip_getElem? {i : Nat} {name text : String} :
    ((trimRecord header).zip (trimRecord record))[i]? = some (name, text) ↔
      (∃ name', header[i]? = some name' ∧ Text.trim name' = name) ∧
        ∃ text', record[i]? = some text' ∧ Text.trim text' = text := by
  simp [List.getElem?_zip_eq_some, trimRecord]

theorem columnsOf_eq_nil_iff (hlong : header.length ≤ record.length) :
    columnsOf header record names = [] ↔ ∀ i, ¬ Names header names i := by
  rw [columnsOf, List.filter_eq_nil_iff]
  constructor
  · rintro hnone i ⟨name, hname, hmem⟩
    have hlt : i < record.length := Nat.lt_of_lt_of_le (List.getElem?_eq_some_iff.1 hname).1 hlong
    have hcolumn := zip_getElem?.2 ⟨⟨name, hname, rfl⟩, ⟨_, List.getElem?_eq_getElem hlt, rfl⟩⟩
    exact hnone _ (List.mem_of_getElem? hcolumn) (by simpa using hmem)
  · rintro hnone ⟨name, text⟩ hmem hname
    obtain ⟨i, hi⟩ := List.mem_iff_getElem?.1 hmem
    obtain ⟨⟨name', hname', rfl⟩, -⟩ := zip_getElem?.1 hi
    exact hnone i ⟨name', hname', by simpa using hname⟩

theorem exists_columnsOf_eq_singleton_iff (hlong : header.length ≤ record.length) :
    (∃ name, columnsOf header record names = [(name, text)]) ↔ ∃ (i : Nat) (text' : String), Names header names i ∧
      (∀ j, Names header names j → j = i) ∧ record[i]? = some text' ∧ Text.trim text' = text := by
  simp only [columnsOf, filter_eq_singleton_iff]
  constructor
  · rintro ⟨name, i, hi, hname, honly⟩
    obtain ⟨⟨name', hname', rfl⟩, ⟨text', htext', rfl⟩⟩ := zip_getElem?.1 hi
    refine ⟨i, text', ⟨name', hname', by simpa using hname⟩, ?_, htext', rfl⟩
    rintro j ⟨name'', hname'', hmem⟩
    have hlt : j < record.length := Nat.lt_of_lt_of_le (List.getElem?_eq_some_iff.1 hname'').1 hlong
    have hpair := zip_getElem?.2 ⟨⟨name'', hname'', rfl⟩, ⟨_, List.getElem?_eq_getElem hlt, rfl⟩⟩
    exact honly j _ hpair (by simpa using hmem)
  · rintro ⟨i, text', ⟨name, hname, hmem⟩, honly, htext', rfl⟩
    refine ⟨Text.trim name, i, zip_getElem?.2 ⟨⟨name, hname, rfl⟩, ⟨text', htext', rfl⟩⟩, by simpa using hmem, ?_⟩
    rintro j ⟨name', text''⟩ hj hname'
    obtain ⟨⟨name'', hname'', rfl⟩, -⟩ := zip_getElem?.1 hj
    exact honly j ⟨name'', hname'', by simpa using hname'⟩

theorem field?_eq (header record names : List String) :
    field? (trimRecord header) (trimRecord record) names = match columnsOf header record names with
      | [] => some ""
      | [(_, text)] => some text
      | _ => none := rfl

theorem field?_eq_some_iff (hlong : header.length ≤ record.length) :
    field? (trimRecord header) (trimRecord record) names = some text ↔ Holds header record names text := by
  rw [field?_eq]
  constructor
  · intro h
    split at h
    next hnil =>
      cases h
      exact .missing ((columnsOf_eq_nil_iff hlong).1 hnil)
    next name text' hone =>
      cases h
      obtain ⟨i, text', hname, honly, htext', rfl⟩ := (exists_columnsOf_eq_singleton_iff hlong).1 ⟨name, hone⟩
      exact .column hname honly htext'
    next => cases h
  · intro h
    cases h with
    | missing hnone => rw [(columnsOf_eq_nil_iff hlong).2 hnone]
    | column hname honly htext =>
      obtain ⟨name, hone⟩ := (exists_columnsOf_eq_singleton_iff hlong).2 ⟨_, _, hname, honly, htext, rfl⟩
      rw [hone]

end Columns

/-! ## Records -/

/-- A record stands for an address. Under a header it is no shorter than the header, and each part of the address is
what the record has in its column; without one the columns stand in their usual order, and those that the record lacks
are blank. -/
inductive StandsFor : Option (List String) → List String → Address → Prop where
  | headed {header record : List String} {a : Address} (long : header.length ≤ record.length)
      (id : Holds header record ["id"] a.id) (street : Holds header record ["street"] a.street)
      (city : Holds header record ["city"] a.city) (state : Holds header record ["state"] a.state)
      (zip : Holds header record ["zip_code", "zip"] a.zip) : StandsFor (some header) record a
  | headless (record : List String) : StandsFor none record {
      id := Text.trim (record[0]?.getD "")
      street := Text.trim (record[1]?.getD "")
      city := Text.trim (record[2]?.getD "")
      state := Text.trim (record[3]?.getD "")
      zip := Text.trim (record[4]?.getD "") }

theorem getElem?_trimRecord (record : List String) (i : Nat) :
    (trimRecord record)[i]?.getD "" = Text.trim (record[i]?.getD "") := by
  rw [trimRecord, List.getElem?_map]
  cases record[i]? with
  | none => exact (Text.trim_eq_empty_iff.2 rfl).symm
  | some text => rfl

theorem ofRow?_headless (record : List String) {a : Address} :
    ofRow? none (trimRecord record) = some a ↔ StandsFor none record a := by
  simp only [ofRow?, columns, List.mapIdx_cons, List.mapIdx_nil, ofColumns, getElem?_trimRecord]
  constructor
  · rintro ⟨⟩
    exact .headless record
  · rintro ⟨⟩
    rfl

theorem ofColumns_mapM_iff {part : List String → Option String} {a : Address} :
    (columns.mapM part).bind ofColumns = some a ↔ part ["id"] = some a.id ∧ part ["street"] = some a.street ∧
      part ["city"] = some a.city ∧ part ["state"] = some a.state ∧ part ["zip_code", "zip"] = some a.zip := by
  obtain ⟨id, street, city, state, zip⟩ := a
  simp only [columns, List.mapM_cons, List.mapM_nil, Option.bind_eq_bind, Option.pure_def]
  cases part ["id"] <;> cases part ["street"] <;> cases part ["city"] <;> cases part ["state"] <;>
    cases part ["zip_code", "zip"] <;> simp [ofColumns]

theorem ofRow?_headed (header record : List String) {a : Address} :
    ofRow? (some (trimRecord header)) (trimRecord record) = some a ↔ StandsFor (some header) record a := by
  have hlengths : (trimRecord record).length < (trimRecord header).length ↔ ¬ header.length ≤ record.length := by
    simp [trimRecord]
  simp only [ofRow?, hlengths]
  by_cases hlong : header.length ≤ record.length
  · simp only [not_not.2 hlong, if_false, ofColumns_mapM_iff, field?_eq_some_iff hlong]
    constructor
    · rintro ⟨hid, hstreet, hcity, hstate, hzip⟩
      exact .headed hlong hid hstreet hcity hstate hzip
    · rintro ⟨-, hid, hstreet, hcity, hstate, hzip⟩
      exact ⟨hid, hstreet, hcity, hstate, hzip⟩
  · simp only [hlong, not_false_eq_true, if_true]
    constructor
    · rintro ⟨⟩
    · rintro ⟨hlong'⟩
      exact absurd hlong' hlong

theorem ofRow?_eq_some_iff {header : Option (List String)} {record : List String} {a : Address} :
    ofRow? (header.map trimRecord) (trimRecord record) = some a ↔ StandsFor header record a := by
  cases header with
  | none => exact ofRow?_headless record
  | some header => exact ofRow?_headed header record

/-- A row is a record that stands for an address; one that is no text stands for none. -/
def Reads (header : Option (List String)) (row : Option (List String)) (a : Address) : Prop :=
  ∃ record, row = some record ∧ StandsFor header record a

theorem reads_iff {header row : Option (List String)} {a : Address} :
    (row.bind fun row => ofRow? (header.map trimRecord) (trimRecord row)) = some a ↔ Reads header row a := by
  simp only [Option.bind_eq_some_iff, ofRow?_eq_some_iff]
  rfl

theorem ofRows_eq_ok_iff {header : Option (List String)} {n : Nat} {rows : List (Option (List String))}
    {addresses : List Address} :
    ofRows (header.map trimRecord) n rows = .ok addresses ↔ List.Forall₂ (Reads header) rows addresses := by
  induction rows generalizing n addresses with
  | nil => simp [ofRows, eq_comm]
  | cons row rows ih =>
    rw [List.forall₂_cons_left_iff, ofRows]
    split
    next a ha =>
      constructor
      · intro h
        cases hrest : ofRows (header.map trimRecord) (n + 1) rows with
        | error row => simp [hrest, Except.map] at h
        | ok rest =>
          rw [hrest] at h
          cases h
          exact ⟨a, rest, reads_iff.1 ha, ih.1 hrest, rfl⟩
      · rintro ⟨a', rest, ha', hrest, rfl⟩
        obtain rfl := Option.some.inj (ha.symm.trans (reads_iff.2 ha'))
        rw [ih.2 hrest]
        rfl
    next hnone =>
      constructor
      · rintro ⟨⟩
      · rintro ⟨a, rest, ha, -⟩
        cases hnone.symm.trans (reads_iff.2 ha)

/-- The header of a file, unless it is no text, and the rows behind it. -/
def tableOf (file : Bytes) : Option (List String) × List (Option (List String)) :=
  match Csv.readBytes file with
  | [] => (none, [])
  | header :: rows => (header, rows)

/-- The rows of a file are these addresses, in order. -/
def Lists (file : Bytes) (addresses : List Address) : Prop :=
  List.Forall₂ (Reads (tableOf file).1) (tableOf file).2 addresses

/-- Every row of a file can be read. -/
def Readable (file : Bytes) : Prop :=
  ∀ row ∈ (tableOf file).2, ∃ a, Reads (tableOf file).1 row a

/-- A table is read exactly if its rows are addresses, and then as these. -/
theorem readTable_eq_ok_iff {file : Bytes} {addresses : List Address} :
    readTable file = .ok addresses ↔ Lists file addresses := by
  unfold Lists
  cases hfile : Csv.readBytes file with
  | nil => simp [readTable, tableOf, hfile, eq_comm]
  | cons header rows => simpa [readTable, tableOf, hfile] using ofRows_eq_ok_iff

theorem readable_iff {file : Bytes} : Readable file ↔ ∃ addresses, Lists file addresses :=
  forall_exists_iff_exists_forall₂

end Address

end Geocoding
