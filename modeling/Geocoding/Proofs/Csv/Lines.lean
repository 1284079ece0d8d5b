import Geocoding.Proofs.Csv
import Mathlib.Tactic.SplitIfs

/-!
# Reading line by line

Behind the end of a line that closes its quotes the reader has forgotten the line, but for the records that it
has made of it. A text of such lines reads as its lines read one by one; in what order they stand decides no
more than the order of the records. A line that leaves a quote open takes what follows into its last field.
-/

namespace Geocoding.Csv

/-- The ends of lines. -/
inductive LineEnd : List Char → Prop
  | lf : LineEnd ['\n']
  | crlf : LineEnd ['\r', '\n']
  | cr : LineEnd ['\r']

/-- A text consists of lines. The last of them may lack its end. -/
inductive Lined : List (List Char) → List Char → Prop
  | nil : Lined [] []
  | last (line : List Char) : Lined [line] line
  | cons {line ending text : List Char} {lines : List (List Char)} (hending : LineEnd ending)
      (rest : Lined lines text) : Lined (line :: lines) (line ++ ending ++ text)

/-- There is no line break in the line. -/
def Unbroken (line : List Char) : Prop :=
  ∀ c ∈ line, c ≠ '\r' ∧ c ≠ '\n'

/-- The line closes the quotes that it opens: behind it the reader is not between quotes. -/
def Closed (line : List Char) : Prop :=
  (Reader.feed {} line).mode ≠ .quoted

instance (line : List Char) : Decidable (Closed line) :=
  inferInstanceAs (Decidable ((Reader.feed {} line).mode ≠ .quoted))

instance (line : List Char) : Decidable (Unbroken line) :=
  List.decidableBAll _ line

namespace Reader

variable {r : Reader Char}

/-! ## What the reader remembers -/

/-- The reader with records that were read before. -/
def behind (before : List (List (List Char))) (r : Reader Char) : Reader Char :=
  { r with records := r.records ++ before }

theorem step_behind (before : List (List (List Char))) (r : Reader Char) (c : Char) :
    step .chars (r.behind before) c = (step .chars r c).behind before := by
  obtain ⟨mode, field, record, records⟩ := r
  cases mode <;> simp only [step, stepField, stepPlain, behind] <;>
    split_ifs <;> simp [push, endField, endRecord]

/-- What was read before plays no part in what is read next. -/
theorem feed_behind (before : List (List (List Char))) (r : Reader Char) (s : List Char) :
    (r.behind before).feed s = (r.feed s).behind before := by
  induction s generalizing r with
  | nil => rfl
  | cons c s ih => rw [feed_cons, feed_cons, step_behind, ih]

theorem finish_behind (before : List (List (List Char))) (r : Reader Char) :
    (r.behind before).finish = before.reverse ++ r.finish := by
  unfold finish
  by_cases hmode : r.mode = .record <;> simp [behind, endRecord, hmode]

/-- Between records the reader has nothing in hand. -/
def Forgets (r : Reader Char) : Prop :=
  r.mode = .record → r = { records := r.records }

theorem Forgets.step (h : r.Forgets) (c : Char) : (step .chars r c).Forgets := by
  intro hmode
  obtain ⟨mode, field, record, records⟩ := r
  cases mode <;> simp only [Reader.step, stepField, stepPlain] at hmode ⊢ <;>
    split_ifs at hmode ⊢ <;> simp_all [push, endField, endRecord, Forgets]

theorem Forgets.feed (h : r.Forgets) (s : List Char) : (r.feed s).Forgets := by
  induction s generalizing r with
  | nil => exact h
  | cons c s ih => exact ih (h.step c)

/-- The end of a line ends the record, if there is one. -/
theorem feed_lineEnd {ending : List Char} (hending : LineEnd ending) (h : r.Forgets) (hmode : r.mode ≠ .quoted) :
    r.feed ending = { records := r.finish.reverse } := by
  by_cases hrecord : r.mode = .record
  · rw [h hrecord]
    cases hending <;> simp [step, finish, Marks.chars]
  · have hbreak : ∀ c, c = '\r' ∨ c = '\n' → Reader.step .chars r c = { records := r.finish.reverse } := by
      rintro c (rfl | rfl) <;> cases hr : r.mode <;>
        simp_all [Reader.step, stepField, stepPlain, Marks.chars, finish, endRecord]
    cases hending with
    | lf => exact hbreak _ (.inr rfl)
    | cr => exact hbreak _ (.inl rfl)
    | crlf =>
      -- The second character of the pair meets a reader between records, which passes over it.
      rw [feed_cons, hbreak _ (.inl rfl)]
      rfl

end Reader

/-! ## Lines -/

open Reader

theorem readAll_eq (s : List Char) : readAll .chars s = (feed {} s).finish := rfl

@[simp] theorem readAll_nil : readAll .chars [] = [] := rfl

/-- A line that closes its quotes is read by itself. -/
theorem readAll_append {line ending : List Char} (hending : LineEnd ending) (hclosed : Closed line)
    (rest : List Char) :
    readAll .chars (line ++ ending ++ rest) = readAll .chars line ++ readAll .chars rest := by
  have hforgets : (feed {} line).Forgets := Forgets.feed (fun _ => rfl) line
  have hstart : ({ records := (feed {} line).finish.reverse } : Reader Char) =
      behind (feed {} line).finish.reverse {} := rfl
  rw [readAll_eq, feed_append, feed_append, feed_lineEnd hending hforgets hclosed, hstart, feed_behind,
    finish_behind, List.reverse_reverse]
  rfl

/-- There is a text of any lines. -/
theorem lined_terminated (lines : List (List Char)) : Lined lines (lines.flatMap (· ++ ['\n'])) := by
  induction lines with
  | nil => exact .nil
  | cons line lines ih => exact .cons .lf ih

/-- Lines that close their quotes are read one by one, whatever follows them. -/
theorem Lined.readAll_append {before after : List (List Char)} {text : List Char} (h : Lined (before ++ after) text)
    (hclosed : ∀ line ∈ before, Closed line) :
    ∃ rest, Lined after rest ∧ readAll .chars text = before.flatMap (readAll .chars) ++ readAll .chars rest := by
  -- The induction is on the text; where the lines before end in it is left open.
  generalize hlines : before ++ after = lines at h
  induction h generalizing before with
  | nil =>
    obtain ⟨rfl, rfl⟩ := List.append_eq_nil_iff.1 hlines
    exact ⟨[], .nil, rfl⟩
  | last line =>
    cases before with
    | nil =>
      obtain rfl : after = [line] := hlines
      exact ⟨line, .last line, rfl⟩
    | cons _ before =>
      obtain ⟨rfl, hnone⟩ := List.cons.inj hlines
      obtain ⟨rfl, rfl⟩ := List.append_eq_nil_iff.1 hnone
      exact ⟨[], .nil, by simp⟩
  | @cons line ending text lines hending rest ih =>
    cases before with
    | nil =>
      obtain rfl : after = line :: lines := hlines
      exact ⟨_, .cons hending rest, rfl⟩
    | cons _ before =>
      obtain ⟨rfl, rfl⟩ := List.cons.inj hlines
      obtain ⟨remaining, hremaining, hread⟩ := ih (fun line hline => hclosed line (List.mem_cons_of_mem _ hline))
        rfl
      refine ⟨remaining, hremaining, ?_⟩
      rw [Csv.readAll_append hending (hclosed _ List.mem_cons_self), hread, List.flatMap_cons, List.append_assoc]

theorem Lined.readAll_eq {lines : List (List Char)} {text : List Char} (h : Lined lines text)
    (hclosed : ∀ line ∈ lines, Closed line) : readAll .chars text = lines.flatMap (readAll .chars) := by
  rw [← List.append_nil lines] at h
  obtain ⟨rest, hrest, hread⟩ := h.readAll_append hclosed
  cases hrest
  rw [hread, readAll_nil, List.append_nil]

/-- A line without breaks holds no more than one record, which is ended behind it. -/
theorem records_of_unbroken {r : Reader Char} {line : List Char} (h : Unbroken line) :
    (r.feed line).records = r.records := by
  induction line generalizing r with
  | nil => rfl
  | cons c line ih =>
    have hc : ¬ (c = (Marks.chars).cr ∨ c = (Marks.chars).lf) := not_or.2 (h c List.mem_cons_self)
    rw [feed_cons, ih fun d hd => h d (List.mem_cons_of_mem _ hd)]
    obtain ⟨mode, field, record, records⟩ := r
    cases mode <;> simp only [step, stepField, stepPlain, if_neg hc] <;>
      split_ifs <;> rfl

/-- A written record is read by itself. -/
theorem WritesRecord.closed {fields : List (List Char)} {line : List Char} (h : WritesRecord fields line) :
    Closed line :=
  (feed_record ⟨.inl rfl, rfl⟩ h).1

theorem WritesRecord.readAll_eq {fields : List (List Char)} {line : List Char} (h : WritesRecord fields line)
    (hne : line ≠ []) : readAll .chars line = [fields] := by
  obtain ⟨-, hrecord, hend⟩ := feed_record (r := {}) ⟨.inl rfl, rfl⟩ h
  rw [Csv.readAll_eq, finish, if_neg fun hmode => hne (hrecord hmode).2, hend]
  rfl

/-! ## The byte order mark -/

/-- A text without the byte order mark in front of it. -/
def unmarked : List Char → List Char
  | '\uFEFF' :: s => s
  | s => s

theorem unmarked_of_head? {s : List Char} (h : s.head? ≠ some '\uFEFF') : unmarked s = s := by
  unfold unmarked
  split
  next => exact absurd rfl h
  next => rfl

theorem mem_of_mem_unmarked {s : List Char} {c : Char} (h : c ∈ unmarked s) : c ∈ s := by
  unfold unmarked at h
  split at h
  next => exact List.mem_cons_of_mem _ h
  next => exact h

theorem readText_eq (s : String) :
    readText s = (readAll .chars (unmarked s.toList)).map fun record => record.map String.ofList := by
  unfold readText unmarked
  split <;> simp_all

/-- The lines of a text as they are read: without the mark in front of the first one. -/
def asRead : List (List Char) → List (List Char)
  | [] => []
  | line :: lines => unmarked line :: lines

theorem unmarked_append {line rest : List Char} (h : rest.head? ≠ some '\uFEFF') :
    unmarked (line ++ rest) = unmarked line ++ rest := by
  cases line with
  | nil => exact unmarked_of_head? h
  | cons c line =>
    rw [List.cons_append]
    unfold unmarked
    split <;> simp_all

theorem Lined.unmarked {lines : List (List Char)} {text : List Char} (h : Lined lines text) :
    Lined (asRead lines) (unmarked text) := by
  cases h with
  | nil => exact .nil
  | last line => exact .last _
  | cons hending rest =>
    rw [List.append_assoc, unmarked_append (by cases hending <;> simp), ← List.append_assoc]
    exact .cons hending rest

end Geocoding.Csv
