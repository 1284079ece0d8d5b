import Geocoding.Csv.Reader
import Geocoding.Csv.Writer

/-!
# Reading back what was written

The reader takes in a written field and stands behind it with exactly its characters in hand, so the comma or
the line break that follows ends that field and no other. From the fields this carries over to records and to
whole texts: what fields hold never moves their borders.
-/

namespace Geocoding.Csv

/-- A way to write a field: in quotes, or as it stands if nothing in it has a meaning of its own. -/
inductive Writes : List Char → List Char → Prop
  | quoted (s : List Char) : Writes s (quoteField s)
  | plain {s : List Char} (h : needsQuotes s = false) : Writes s s

/-- A way to write a record on a line, whose end is left out. -/
inductive WritesRecord : List (List Char) → List Char → Prop
  | single {f t : List Char} (h : Writes f t) : WritesRecord [f] t
  | cons {f t ts : List Char} {fs : List (List Char)} (h : Writes f t) (rest : WritesRecord fs ts) :
      WritesRecord (f :: fs) (t ++ ',' :: ts)

theorem writes_writeField (s : List Char) : Writes s (writeField s) := by
  unfold writeField
  split
  next => exact .quoted s
  next hquotes => exact .plain (Bool.not_eq_true _ ▸ hquotes)

theorem eq_nil_of_writeField {f : String} (h : writeField f.toList = []) : f = "" := by
  unfold writeField at h
  split at h
  next => cases h
  next => exact String.toList_eq_nil_iff.1 h

/-- Fields that are joined are a record, however each of them is written. -/
theorem writesRecord_joinFields {write : String → List Char} (hwrite : ∀ f : String, Writes f.toList (write f))
    (f : String) (fs : List String) :
    WritesRecord ((f :: fs).map String.toList) (joinFields ((f :: fs).map write)) := by
  induction fs generalizing f with
  | nil => exact .single (hwrite f)
  | cons f' fs ih => exact .cons (hwrite f) (ih f')

/-- A record may be written with every field in quotes. -/
theorem writesRecord_quoted {fields : List String} (h : fields ≠ []) :
    WritesRecord (fields.map String.toList) (joinFields (fields.map fun f => quoteField f.toList)) := by
  obtain ⟨f, fs, rfl⟩ := List.exists_cons_of_ne_nil h
  exact writesRecord_joinFields (fun f => .quoted f.toList) f fs

theorem head?_quoted {fields : List String} (h : fields ≠ []) :
    (joinFields (fields.map fun f => quoteField f.toList)).head? = some '"' := by
  obtain ⟨f, fs, rfl⟩ := List.exists_cons_of_ne_nil h
  cases fs <;> rfl

namespace Reader

/-- Take in characters one by one. -/
def feed (r : Reader Char) (s : List Char) : Reader Char :=
  s.foldl (step .chars) r

@[simp] theorem feed_nil (r : Reader Char) : r.feed [] = r := rfl

@[simp] theorem feed_cons (r : Reader Char) (c : Char) (s : List Char) :
    r.feed (c :: s) = (step .chars r c).feed s := rfl

@[simp] theorem feed_append (r : Reader Char) (s t : List Char) : r.feed (s ++ t) = (r.feed s).feed t :=
  List.foldl_append

/-- The reader stands at the start of a field. -/
structure AtStart (r : Reader Char) : Prop where
  mode : r.mode = .record ∨ r.mode = .field
  field : r.field = []

/-- The character has no meaning of its own outside quotes. -/
def ordinary (c : Char) : Prop :=
  c ≠ ',' ∧ c ≠ '"' ∧ c ≠ '\r' ∧ c ≠ '\n'

theorem ordinary_of_not_needsQuotes {s : List Char} (h : needsQuotes s = false) : ∀ c ∈ s, ordinary c := by
  simpa [needsQuotes, ordinary, and_assoc] using h

section Steps

variable {r : Reader Char} {c : Char}

theorem stepPlain_ordinary (h : ordinary c) : r.stepPlain .chars c = r.push c .plain := by
  obtain ⟨hcomma, -, hcr, hlf⟩ := h
  simp [stepPlain, Marks.chars, hcomma, hcr, hlf]

theorem stepField_ordinary (h : ordinary c) : r.stepField .chars c = r.push c .plain := by
  have hquote : c ≠ (Marks.chars).quote := h.2.1
  rw [stepField, if_neg hquote, stepPlain_ordinary h]

theorem step_ordinary (hr : r.mode = .record ∨ r.mode = .field ∨ r.mode = .plain) (h : ordinary c) :
    step .chars r c = r.push c .plain := by
  have hbreak : ¬ (c = (Marks.chars).cr ∨ c = (Marks.chars).lf) := not_or.2 h.2.2
  unfold step
  rcases hr with hr | hr | hr <;> rw [hr]
  · exact (if_neg hbreak).trans (stepField_ordinary h)
  · exact stepField_ordinary h
  · exact stepPlain_ordinary h

end Steps

/-! ## Fields -/

theorem feed_ordinary {r : Reader Char} {s : List Char} (hr : r.mode = .plain) (h : ∀ c ∈ s, ordinary c) :
    r.feed s = { r with field := s.reverse ++ r.field } := by
  induction s generalizing r with
  | nil => rfl
  | cons c s ih =>
    have hs : ∀ c ∈ s, ordinary c := fun c hc => h c (List.mem_cons_of_mem _ hc)
    rw [feed_cons, step_ordinary (.inr (.inr hr)) (h c List.mem_cons_self), ih rfl hs]
    simp [push, hr]

/-- Between quotes every character is read as it was meant: a quote only ends the field if no other follows. -/
theorem feed_double {r : Reader Char} {s : List Char} (hr : r.mode = .quoted) :
    r.feed (double s) = { r with field := s.reverse ++ r.field } := by
  induction s generalizing r with
  | nil => rfl
  | cons c s ih =>
    -- What stands for the character puts it into the field, and the reader is between quotes again.
    have hchar : r.feed (if c = '"' then ['"', '"'] else [c]) = r.push c .quoted := by
      by_cases hquote : c = '"' <;> simp [hquote, step, hr, Marks.chars, push]
    have hdouble : double (c :: s) = (if c = '"' then ['"', '"'] else [c]) ++ double s := rfl
    rw [hdouble, feed_append, hchar, ih rfl]
    simp [push, hr]

/-- However a field is written, the reader behind it has it in hand, and waits for its end. If nothing was
written, it still stands where it stood. -/
theorem feed_field {r : Reader Char} (hr : r.AtStart) {s t : List Char} (h : Writes s t) :
    ∃ mode, r.feed t = { r with mode, field := s.reverse } ∧
      (mode = .plain ∨ mode = .closing ∨ mode = r.mode ∧ t = []) := by
  obtain ⟨hmode, hfield⟩ := hr
  cases h with
  | quoted =>
    -- Behind the last quote the reader cannot know yet whether another one follows.
    refine ⟨.closing, ?_, .inr (.inl rfl)⟩
    have hopen : step .chars r '"' = { r with mode := .quoted } := by
      rcases hmode with hmode | hmode <;> simp [step, hmode, stepField, Marks.chars]
    rw [quoteField, feed_cons, hopen, feed_append, feed_double rfl]
    simp [step, Marks.chars, hfield]
  | plain hquotes =>
    have hordinary := ordinary_of_not_needsQuotes hquotes
    cases s with
    | nil => exact ⟨r.mode, by rw [feed_nil, List.reverse_nil, ← hfield], .inr (.inr ⟨rfl, rfl⟩)⟩
    | cons c s =>
      refine ⟨.plain, ?_, .inl rfl⟩
      have hstart : r.mode = .record ∨ r.mode = .field ∨ r.mode = .plain := hmode.imp_right .inl
      rw [feed_cons, step_ordinary hstart (hordinary c List.mem_cons_self),
        feed_ordinary rfl fun c hc => hordinary c (List.mem_cons_of_mem _ hc)]
      simp [push, hfield]

theorem step_comma {r : Reader Char} (h : r.mode ≠ .quoted) : step .chars r ',' = r.endField := by
  cases hr : r.mode <;> simp_all [step, stepField, stepPlain, Marks.chars]

theorem step_lineBreak {r : Reader Char} (h : r.mode ≠ .quoted) (hr : r.mode ≠ .record) :
    step .chars r '\n' = r.endRecord := by
  cases hmode : r.mode <;> simp_all [step, stepField, stepPlain, Marks.chars]

/-! ## Records -/

/-- Behind a written record the reader has all its fields in hand, and ends it with the next line break. Only
if nothing was written there may be no record to end. -/
theorem feed_record {r : Reader Char} (hr : r.AtStart) {fs : List (List Char)} {t : List Char}
    (h : WritesRecord fs t) :
    (r.feed t).mode ≠ .quoted ∧ ((r.feed t).mode = .record → r.mode = .record ∧ t = []) ∧
      (r.feed t).endRecord = { records := (r.record.reverse ++ fs) :: r.records } := by
  induction h generalizing r with
  | @single f t hwrites =>
    obtain ⟨mode, hfeed, hmode⟩ := feed_field hr hwrites
    rw [hfeed]
    refine ⟨?_, ?_, by simp [endRecord]⟩
    · rcases hmode with rfl | rfl | ⟨rfl, -⟩
      · simp
      · simp
      · rcases hr.mode with hr | hr <;> simp [hr]
    · rcases hmode with rfl | rfl | ⟨rfl, rfl⟩
      · simp
      · simp
      · exact fun hrecord => ⟨hrecord, rfl⟩
  | @cons f t ts fs hwrites _ ih =>
    obtain ⟨mode, hfeed, hmode⟩ := feed_field hr hwrites
    have hends : mode ≠ .quoted := by
      rcases hmode with rfl | rfl | ⟨rfl, -⟩
      · simp
      · simp
      · rcases hr.mode with hr | hr <;> simp [hr]
    -- The comma ends the field, and the rest is read as a record that starts behind it.
    have hcomma : r.feed (t ++ ',' :: ts) =
        Reader.feed { r with mode := .field, field := [], record := f :: r.record } ts := by
      rw [feed_append, hfeed, feed_cons, step_comma (r := { r with mode, field := f.reverse }) hends]
      simp [endField]
    obtain ⟨hclosed, hrest, hend⟩ := ih (r := { r with mode := .field, field := [], record := f :: r.record })
      ⟨.inr rfl, rfl⟩
    rw [hcomma, hend]
    refine ⟨hclosed, fun hrecord => ?_, by simp⟩
    cases (hrest hrecord).1

theorem feed_writeRecord (records : List (List (List Char))) {fields : List String} (h : fields ≠ []) :
    Reader.feed { records } (writeRecord fields) = { records := fields.map String.toList :: records } := by
  unfold writeRecord
  split
  next hlone =>
    subst hlone
    rfl
  next hlone =>
    obtain ⟨f, fs, rfl⟩ := List.exists_cons_of_ne_nil h
    have hwrites := writesRecord_joinFields (fun f => writes_writeField f.toList) f fs
    obtain ⟨hclosed, hempty, hend⟩ := feed_record (r := { records }) ⟨.inl rfl, rfl⟩ hwrites
    -- A record that leaves nothing to be read has a single empty field, which is written with quotes.
    have hrecord : (Reader.feed { records } (joinFields ((f :: fs).map fun f => writeField f.toList))).mode ≠
        .record := by
      intro hmode
      have hnone := (hempty hmode).2
      cases fs with
      | nil => exact hlone (by rw [eq_nil_of_writeField hnone])
      | cons f' fs => simp [joinFields] at hnone
    rw [feed_append, feed_cons, feed_nil, step_lineBreak hclosed hrecord, hend]
    simp

theorem feed_writeRecords (before : List (List (List Char))) {records : List (List String)}
    (h : ∀ fields ∈ records, fields ≠ []) :
    Reader.feed { records := before } (records.flatMap writeRecord) =
      { records := (records.map (·.map String.toList)).reverse ++ before } := by
  induction records generalizing before with
  | nil => rfl
  | cons fields records ih =>
    rw [List.flatMap_cons, feed_append, feed_writeRecord before (h fields List.mem_cons_self),
      ih _ fun fields hfields => h fields (List.mem_cons_of_mem _ hfields)]
    simp

end Reader

/-! ## Texts -/

/-- A written record starts like its first field, or with a quote, or with what ends that field. -/
theorem head?_writeRecord {f : String} {fs : List String} {c : Char}
    (h : (writeRecord (f :: fs)).head? = some c) : f.toList.head? = some c ∨ c ∈ ['"', ',', '\n'] := by
  have hfield : ∀ {rest : List Char} {d : Char}, d ∈ ['"', ',', '\n'] →
      (writeField f.toList ++ d :: rest).head? = some c → f.toList.head? = some c ∨ c ∈ ['"', ',', '\n'] := by
    intro rest d hd h
    unfold writeField at h
    split at h
    · obtain rfl : '"' = c := Option.some.inj h
      exact .inr List.mem_cons_self
    · cases hf : f.toList with
      | nil =>
        rw [hf] at h
        obtain rfl : d = c := Option.some.inj h
        exact .inr hd
      | cons e s =>
        rw [hf] at h
        exact .inl h
  unfold writeRecord at h
  split at h
  · obtain rfl : '"' = c := Option.some.inj h
    exact .inr List.mem_cons_self
  · cases fs with
    | nil => exact hfield (by simp) h
    | cons f' fs =>
      rw [List.map_cons, List.map_cons, joinFields, List.append_assoc, List.cons_append] at h
      · exact hfield (by simp) h
      · simp

/-- Records that were written are read back, if the text does not start with a byte order mark. -/
theorem readText_writeText {records : List (List String)} (h : ∀ fields ∈ records, fields ≠ [])
    (hmark : ∀ f fs, records.head? = some (f :: fs) → f.toList.head? ≠ some '\uFEFF') :
    readText (writeText records) = records := by
  -- Nothing is written in front of the first field but a quote, so there is no mark to be dropped.
  have hhead : (records.flatMap writeRecord).head? ≠ some '\uFEFF' := by
    cases records with
    | nil => simp
    | cons fields records =>
      obtain ⟨f, fs, rfl⟩ := List.exists_cons_of_ne_nil (h fields List.mem_cons_self)
      intro hhead
      have hrecord : (writeRecord (f :: fs)).head? = some '\uFEFF' := by
        rw [List.flatMap_cons, List.head?_append] at hhead
        cases hwrite : writeRecord (f :: fs) with
        | nil => simp [writeRecord] at hwrite
        | cons c s => simpa [hwrite] using hhead
      rcases head?_writeRecord hrecord with hf | hc
      · exact hmark f fs rfl hf
      · simp at hc
  have htext : readText (writeText records) =
      (Reader.readAll .chars (records.flatMap writeRecord)).map fun record => record.map String.ofList := by
    unfold readText writeText
    rw [String.toList_ofList]
    split
    next cs hcs => exact absurd (by rw [hcs, List.head?_cons]) hhead
    next => rfl
  have hread : Reader.readAll .chars (records.flatMap writeRecord) = records.map (·.map String.toList) := by
    have hfeed := Reader.feed_writeRecords [] h
    rw [Reader.feed, List.append_nil] at hfeed
    rw [Reader.readAll, hfeed]
    simp [Reader.finish]
  rw [htext, hread]
  simp [Function.comp_def]

end Geocoding.Csv
