import Geocoding.Census.Bulk
import Geocoding.Proofs.Csv.Lines

/-!
# Bad lines in a batch response

A line that cannot be understood is dropped, and a line that closes its quotes is dropped alone: the lines
around it say what they say without it. A line that leaves a quote open takes the next line into its last field,
so it costs that line its row as well. Lines before it are safe from it either way.
-/

namespace Geocoding.Census

open Csv

/-- A line of a response as the geocoder writes it: each field is in quotes, and none has a line break in it. -/
structure ResponseLine where
  fields : List String
  nonempty : fields ≠ []
  unbroken : ∀ f ∈ fields, Unbroken f.toList

namespace ResponseLine

/-- The text of the line. -/
def text (line : ResponseLine) : List Char :=
  joinFields (line.fields.map fun f => quoteField f.toList)

/-- What the line says by itself. -/
def row? (line : ResponseLine) : Option BatchMatch :=
  BatchMatch.ofLine? line.fields

theorem writesRecord (line : ResponseLine) : WritesRecord (line.fields.map String.toList) line.text :=
  writesRecord_quoted line.nonempty

theorem head?_text (line : ResponseLine) : line.text.head? = some '"' :=
  head?_quoted line.nonempty

theorem readAll_text (line : ResponseLine) :
    Reader.readAll .chars line.text = [line.fields.map String.toList] :=
  line.writesRecord.readAll_eq fun hnil => by simpa [hnil] using line.head?_text

end ResponseLine

/-! ## Rows -/

/-- The rows of records. -/
def rowsIn (records : List (List (List Char))) : List BatchMatch :=
  records.filterMap fun record => BatchMatch.ofLine? (record.map String.ofList)

theorem parseResponse_eq (body : String) :
    parseResponse body = rowsIn (Reader.readAll .chars (unmarked body.toList)) := by
  rw [parseResponse, readText_eq, List.filterMap_map]
  rfl

theorem rowsIn_append (records others : List (List (List Char))) :
    rowsIn (records ++ others) = rowsIn records ++ rowsIn others :=
  List.filterMap_append

theorem rowsIn_readAll_text (lines : List ResponseLine) :
    rowsIn ((lines.map ResponseLine.text).flatMap (Reader.readAll .chars)) = lines.filterMap ResponseLine.row? := by
  induction lines with
  | nil => rfl
  | cons line lines ih =>
    rw [List.map_cons, List.flatMap_cons, rowsIn_append, ih, line.readAll_text, List.filterMap_cons]
    have hfields : (line.fields.map String.toList).map String.ofList = line.fields := by simp [Function.comp_def]
    cases hrow : line.row? <;> simp_all [rowsIn, ResponseLine.row?]

theorem id_of_matchedRow? {id : String} {fields : List String} {row : BatchMatch}
    (h : matchedRow? id fields = some row) : row.id = id := by
  simp only [matchedRow?, Option.bind_eq_bind, Option.bind_eq_some_iff] at h
  obtain ⟨_, _, _, _, _, _, _, _, hrow⟩ := h
  rw [← Option.some.inj hrow]

/-- A row is the row of the first field of its line. -/
theorem id_of_ofLine? {f : String} {fs : List String} {row : BatchMatch}
    (h : BatchMatch.ofLine? (f :: fs) = some row) : row.id = Text.trim f := by
  unfold BatchMatch.ofLine? at h
  simp only [List.getElem?_cons_zero, Option.bind_eq_bind, Option.bind_some] at h
  split at h
  next => cases h
  next =>
    obtain ⟨status, -, h⟩ := Option.bind_eq_some_iff.1 h
    split at h
    · rw [← Option.some.inj h]
    · split at h
      · exact id_of_matchedRow? h
      · cases h

/-! ## A line among others -/

/-- A line behind others, as it is read: a byte order mark is dropped only in front of everything. -/
def received : List ResponseLine → List Char → List Char
  | [], line => unmarked line
  | _ :: _, line => line

/-- No mark stands in front of a line that the geocoder writes. -/
theorem asRead_text (line : ResponseLine) (lines : List (List Char)) :
    asRead (line.text :: lines) = line.text :: lines := by
  rw [asRead, unmarked_of_head? (by simp [line.head?_text])]

theorem asRead_insert (before after : List ResponseLine) (line : List Char) :
    asRead (before.map ResponseLine.text ++ line :: after.map ResponseLine.text) =
      before.map ResponseLine.text ++ received before line :: after.map ResponseLine.text := by
  cases before with
  | nil => rfl
  | cons first before => exact asRead_text first _

theorem closed_text (lines : List ResponseLine) : ∀ line ∈ lines.map ResponseLine.text, Closed line := by
  intro line hline
  obtain ⟨line, -, rfl⟩ := List.mem_map.1 hline
  exact line.writesRecord.closed

/-- The lines before any line say what they say without it. -/
theorem parseResponse_insert {before after : List ResponseLine} {line : List Char} {body : String}
    (h : Lined (before.map ResponseLine.text ++ line :: after.map ResponseLine.text) body.toList) :
    ∃ rest, Lined (received before line :: after.map ResponseLine.text) rest ∧
      parseResponse body = before.filterMap ResponseLine.row? ++ rowsIn (Reader.readAll .chars rest) := by
  have hread := h.unmarked
  rw [asRead_insert] at hread
  obtain ⟨rest, hrest, hrecords⟩ := hread.readAll_append (closed_text before)
  exact ⟨rest, hrest, by rw [parseResponse_eq, hrecords, rowsIn_append, rowsIn_readAll_text]⟩

theorem parseResponse_lines {lines : List ResponseLine} {body : String}
    (h : Lined (lines.map ResponseLine.text) body.toList) :
    parseResponse body = lines.filterMap ResponseLine.row? := by
  have hlines : asRead (lines.map ResponseLine.text) = lines.map ResponseLine.text := by
    cases lines with
    | nil => rfl
    | cons line lines => exact asRead_text line _
  have hread := h.unmarked
  rw [hlines] at hread
  rw [parseResponse_eq, hread.readAll_eq (closed_text lines), rowsIn_readAll_text]

/-- Without the line, every row is there that is there with it. -/
def Spares (before after : List ResponseLine) (line : List Char) : Prop :=
  ∀ body body' : String, Lined ((before ++ after).map ResponseLine.text) body.toList →
    Lined (before.map ResponseLine.text ++ line :: after.map ResponseLine.text) body'.toList →
      (parseResponse body).Sublist (parseResponse body')

theorem spares_of_closed {before : List ResponseLine} {line : List Char} (h : Closed (received before line))
    (after : List ResponseLine) : Spares before after line := by
  intro body body' hbody hbody'
  obtain ⟨rest, hrest, hrows⟩ := parseResponse_insert hbody'
  have hclosed : ∀ l ∈ received before line :: after.map ResponseLine.text, Closed l :=
    List.forall_mem_cons.2 ⟨h, closed_text after⟩
  rw [hrows, parseResponse_lines hbody, hrest.readAll_eq hclosed, List.flatMap_cons, rowsIn_append,
    rowsIn_readAll_text, List.filterMap_append]
  exact (List.sublist_append_right _ _).append_left _

/-! ## An open quote -/

/-- Two lines of rows with several matches. -/
def tie (first : Bool) : ResponseLine where
  fields := [if first then "x" else "y", "", "Tie"]
  nonempty := List.cons_ne_nil _ _
  unbroken := by cases first <;> decide

theorem row?_tie (first : Bool) : (tie first).row? = some { id := if first then "x" else "y" } := by
  cases first <;> decide +kernel

/-- Behind an open quote a line is not read by itself: its first field goes on with the field before it. -/
theorem feed_tie {line ending field : List Char} {record : List (List Char)}
    (hopen : Reader.feed {} line = { mode := .quoted, field, record }) (hending : LineEnd ending) (first : Bool) :
    Reader.feed {} (line ++ ending ++ (tie first).text) = {
      mode := .closing
      field := ['e', 'i', 'T']
      record := [] :: (field.reverse ++ ending ++ [if first then 'x' else 'y', '"']) :: record } := by
  rw [Reader.feed_append, Reader.feed_append, hopen]
  cases hending <;> cases first <;>
    simp [tie, ResponseLine.text, joinFields, quoteField, double, Reader.step, Reader.push, Reader.stepField,
      Reader.stepPlain, Reader.endField, Marks.chars]

theorem open_of_not_closed {line : List Char} (hline : Unbroken line) (h : ¬ Closed line) :
    ∃ field record, Reader.feed {} line = { mode := .quoted, field, record } := by
  have hrecords : (Reader.feed {} line).records = [] := records_of_unbroken hline
  have hquoted : (Reader.feed {} line).mode = .quoted := Decidable.not_not.1 h
  generalize Reader.feed {} line = r at hrecords hquoted
  obtain ⟨mode, field, record, records⟩ := r
  obtain rfl : mode = .quoted := hquoted
  obtain rfl : records = [] := hrecords
  exact ⟨field, record, rfl⟩

/-- The two lines make one record. -/
def merged (field : List Char) (record : List (List Char)) (ending : List Char) (first : Bool) : List (List Char) :=
  record.reverse ++ [field.reverse ++ ending ++ [if first then 'x' else 'y', '"'], [], ['T', 'i', 'e']]

theorem readAll_tie {line field rest : List Char} {record : List (List Char)} {first : Bool}
    (hopen : Reader.feed {} line = { mode := .quoted, field, record }) (h : Lined [line, (tie first).text] rest) :
    ∃ ending, LineEnd ending ∧ Reader.readAll .chars rest = [merged field record ending first] := by
  have hmerged {ending : List Char} (hending : LineEnd ending) :
      Reader.readAll .chars (line ++ ending ++ (tie first).text) = [merged field record ending first] := by
    rw [readAll_eq, feed_tie hopen hending]
    simp [Reader.finish, Reader.endRecord, merged]
  cases h with
  | @cons _ ending _ _ hending rest =>
    refine ⟨ending, hending, ?_⟩
    cases rest with
    | last => exact hmerged hending
    | cons hend rest =>
      cases rest
      have hclosed : Closed (line ++ ending ++ (tie first).text) := by
        rw [Closed, feed_tie hopen hending]
        exact Mode.noConfusion
      rw [← List.append_assoc, ← List.append_assoc, readAll_append hend hclosed, hmerged hending, readAll_nil,
        List.append_nil]

/-- One of the two rows is not what the record says. -/
theorem exists_lost (field : List Char) (record : List (List Char)) :
    ∃ first, ∀ ending,
      BatchMatch.ofLine? ((merged field record ending first).map String.ofList) ≠ (tie first).row? := by
  -- The record has the first field that was read, or the field that the quote has left open.
  have hid (first : Bool) (ending : List Char) {f : List Char} (hf : (merged field record ending first).head? = some f)
      (hrow : BatchMatch.ofLine? ((merged field record ending first).map String.ofList) = (tie first).row?) :
      (if first then "x" else "y") = Text.trim (String.ofList f) := by
    obtain ⟨fs, hf⟩ := List.head?_eq_some_iff.1 hf
    rw [hf, List.map_cons, row?_tie] at hrow
    exact id_of_ofLine? hrow
  cases hrecord : record.reverse with
  | nil =>
    refine ⟨true, fun ending hrow => ?_⟩
    have hx := hid true ending (by rw [merged, hrecord]; rfl) hrow
    have hquote : '"' ∈ (Text.trim (String.ofList (field.reverse ++ ending ++ ['x', '"']))).toList := by
      rw [Text.trim, String.toList_ofList, String.toList_ofList]
      exact Text.mem_strip (by simp) (by decide)
    exact absurd (hx ▸ hquote) (by decide)
  | cons f fs =>
    have hfirst (first : Bool) (ending : List Char) : (merged field record ending first).head? = some f := by
      rw [merged, hrecord]
      rfl
    by_cases hx : "x" = Text.trim (String.ofList f)
    · refine ⟨false, fun ending hrow => ?_⟩
      exact absurd (hx.trans (hid false ending (hfirst false ending) hrow).symm) (by decide)
    · exact ⟨true, fun ending hrow => hx (hid true ending (hfirst true ending) hrow)⟩

theorem unbroken_received {before : List ResponseLine} {line : List Char} (h : Unbroken line) :
    Unbroken (received before line) := by
  cases before with
  | cons => exact h
  | nil => exact fun c hc => h c (mem_of_mem_unmarked hc)

theorem not_spares_of_open {before : List ResponseLine} {line : List Char} (hline : Unbroken line)
    (h : ¬ Closed (received before line)) : ∃ after, ¬ Spares before after line := by
  obtain ⟨field, record, hopen⟩ := open_of_not_closed (unbroken_received hline) h
  obtain ⟨first, hlost⟩ := exists_lost field record
  refine ⟨[tie first], fun hspares => ?_⟩
  have hbody := lined_terminated ((before ++ [tie first]).map ResponseLine.text)
  have hbody' := lined_terminated (before.map ResponseLine.text ++ line :: [tie first].map ResponseLine.text)
  rw [← String.toList_ofList (l := List.flatMap _ _)] at hbody hbody'
  obtain ⟨rest, hrest, hrows⟩ := parseResponse_insert hbody'
  obtain ⟨ending, -, hmerged⟩ := readAll_tie hopen hrest
  have hsub := hspares _ _ hbody hbody'
  rw [hrows, parseResponse_lines hbody, List.filterMap_append, List.append_sublist_append_left, hmerged] at hsub
  -- There is room for one row only, which would have to be the row of the lost line.
  refine hlost ending ?_
  cases hrow : BatchMatch.ofLine? ((merged field record ending first).map String.ofList) with
  | none => simp [rowsIn, hrow, row?_tie] at hsub
  | some row => simpa [rowsIn, hrow, row?_tie, eq_comm] using hsub

/-- The rows of the lines before a line are there whatever the line is. The rows of the lines behind it are there,
whatever those lines are, if and only if the line closes the quotes that it opens. -/
theorem spares_iff_closed (before : List ResponseLine) (line : List Char) (hline : Unbroken line) :
    (∀ (after : List ResponseLine) (body : String),
      Lined (before.map ResponseLine.text ++ line :: after.map ResponseLine.text) body.toList →
        before.filterMap ResponseLine.row? <+: parseResponse body) ∧
    ((∀ after, Spares before after line) ↔ Closed (received before line)) := by
  refine ⟨fun after body hbody => ?_, fun hspares => ?_, fun hclosed => spares_of_closed hclosed⟩
  · obtain ⟨rest, -, hrows⟩ := parseResponse_insert hbody
    exact hrows ▸ List.prefix_append _ _
  · refine Decidable.by_contra fun hopen => ?_
    obtain ⟨after, hlost⟩ := not_spares_of_open hline hopen
    exact hlost (hspares after)

/-- A line without quotes costs nothing, wherever it stands; an open quote does. -/
theorem spares_iff_closed_garbage :
    let row : ResponseLine := { fields := ["0", "1 Elm St", "No_Match"], nonempty := by decide, unbroken := by decide }
    Unbroken "garbage".toList ∧ (∀ after, Spares [row] after "garbage".toList) ∧
    Unbroken "1,\"garbage".toList ∧ ¬ ∀ after, Spares [row] after "1,\"garbage".toList := by
  intro row
  have hgarbage : Unbroken "garbage".toList := by decide
  have hopen : Unbroken "1,\"garbage".toList := by decide
  exact ⟨hgarbage, (spares_iff_closed [row] _ hgarbage).2.2 (by decide), hopen,
    mt (spares_iff_closed [row] _ hopen).2.1 (by decide)⟩

/-- A quote that is opened on the first line costs the line behind it its row. -/
theorem not_spares_open_quote :
    let row : ResponseLine := { fields := ["0", "1 Elm St", "No_Match"], nonempty := by decide, unbroken := by decide }
    Unbroken "\"garbage".toList ∧ ¬ Spares [] [row] "\"garbage".toList := by
  refine ⟨by decide, fun hspares => ?_⟩
  have hsub := hspares "\"0\",\"1 Elm St\",\"No_Match\"\n" "\"garbage\n\"0\",\"1 Elm St\",\"No_Match\"\n"
    (lined_terminated ["\"0\",\"1 Elm St\",\"No_Match\"".toList])
    (lined_terminated ["\"garbage".toList, "\"0\",\"1 Elm St\",\"No_Match\"".toList])
  exact absurd (hsub.subset List.mem_cons_self) (by decide +kernel)

end Geocoding.Census
