import Geocoding.Proofs.BatchResponse
import Geocoding.Proofs.Double.Notation

/-!
# Responses with every field in quotes

The geocoder puts each field of a response into quotes, so fields hold what they like, line breaks among it.
However wide such a record is, the reader stands behind it as if nothing had been read. The rows of a response are
therefore those of its records, one by one, and a row depends on nothing outside its record.
-/

namespace Geocoding.Csv

/-- A record with every field in quotes, and the end of its line. -/
def quotedRecord (fields : List String) : List Char :=
  joinFields (fields.map fun f => quoteField f.toList) ++ ['\n']

/-- Records with every field in quotes, each on a line of its own. -/
def quotedText (records : List (List String)) : List Char :=
  records.flatMap quotedRecord

/-- A record is read by itself, whatever its fields hold and whatever follows it. -/
theorem readAll_quotedRecord {fields : List String} (h : fields ≠ []) (rest : List Char) :
    Reader.readAll .chars (quotedRecord fields ++ rest) =
      fields.map String.toList :: Reader.readAll .chars rest := by
  have hwrites := writesRecord_quoted h
  have hne : joinFields (fields.map fun f => quoteField f.toList) ≠ [] :=
    fun hnil => by simpa [hnil] using head?_quoted h
  rw [quotedRecord, readAll_append .lf hwrites.closed, hwrites.readAll_eq hne, List.singleton_append]

theorem readAll_quotedText {records : List (List String)} (h : ∀ fields ∈ records, fields ≠ [])
    (rest : List Char) :
    Reader.readAll .chars (quotedText records ++ rest) =
      records.map (·.map String.toList) ++ Reader.readAll .chars rest := by
  induction records with
  | nil => rfl
  | cons fields records ih =>
    obtain ⟨hne, hrecords⟩ := List.forall_mem_cons.1 h
    rw [quotedText, List.flatMap_cons, List.append_assoc, readAll_quotedRecord hne, ← quotedText, ih hrecords]
    rfl

/-- No mark stands in front of a record. -/
theorem unmarked_quotedText_append {records : List (List String)} (h : ∀ fields ∈ records, fields ≠ [])
    {rest : List Char} (hrest : rest.head? ≠ some '\uFEFF') :
    unmarked (quotedText records ++ rest) = quotedText records ++ rest := by
  refine unmarked_of_head? ?_
  cases records with
  | nil => exact hrest
  | cons fields records =>
    have hhead := head?_quoted (h fields List.mem_cons_self)
    rw [quotedText, List.flatMap_cons, quotedRecord, List.append_assoc, List.append_assoc, List.head?_append, hhead,
      Option.some_or]
    decide

end Geocoding.Csv

namespace Geocoding.Census

open Csv

/-! ## Rows -/

/-- The text is a point: two doubles around its first comma, perhaps with blanks around each of them. -/
def IsPoint (s : List Char) : Prop :=
  ∃ longitude latitude, s = longitude ++ ',' :: latitude ∧ ',' ∉ longitude ∧
    Double.Denotes (Text.strip longitude) ∧ Double.Denotes (Text.strip latitude)

/-- The first field of the record is not blank, and the third one is the status of an address without a match or
with several, or that of a match with a point in the sixth field. -/
def SaysRow (fields : List String) : Prop :=
  (∃ id, fields[0]? = some id ∧ Text.trim id ≠ "") ∧
    ∃ status, fields[2]? = some status ∧
      (Text.eqIgnoringCase (Text.trim status) "No_Match" = true ∨
        Text.eqIgnoringCase (Text.trim status) "Tie" = true ∨
        Text.eqIgnoringCase (Text.trim status) "Match" = true ∧
          ∃ point, fields[5]? = some point ∧ IsPoint point.toList)

theorem point?_eq_some_iff {s : String} {x y : Double} :
    point? s = some (x, y) ↔ ∃ longitude latitude, s.toList = longitude ++ ',' :: latitude ∧ ',' ∉ longitude ∧
      Double.read? (String.ofList (Text.strip longitude)) = some x ∧
      Double.read? (String.ofList (Text.strip latitude)) = some y := by
  simp [point?, Option.bind_eq_some_iff, Text.splitAtFirst_eq_some_iff, and_assoc]

theorem isSome_point?_iff (s : String) : (point? s).isSome = true ↔ IsPoint s.toList := by
  simp only [Option.isSome_iff_exists, Prod.exists, point?_eq_some_iff, IsPoint, Double.denotes_iff]
  constructor
  · rintro ⟨x, y, longitude, latitude, hs, hcomma, hx, hy⟩
    exact ⟨longitude, latitude, hs, hcomma, ⟨x, hx⟩, ⟨y, hy⟩⟩
  · rintro ⟨longitude, latitude, hs, hcomma, ⟨x, hx⟩, ⟨y, hy⟩⟩
    exact ⟨x, y, longitude, latitude, hs, hcomma, hx, hy⟩

/-- A match of six fields or more has everything that a row needs but perhaps a point. -/
theorem isSome_matchedRow?_iff (id : String) (fields : List String) :
    (matchedRow? id fields).isSome = true ↔ ∃ point, fields[5]? = some point ∧ IsPoint point.toList := by
  simp only [← isSome_point?_iff]
  constructor
  · intro h
    obtain ⟨row, hrow⟩ := Option.isSome_iff_exists.1 h
    obtain ⟨point, hpoint, hrow⟩ := Option.bind_eq_some_iff.1 hrow
    obtain ⟨pair, hpair, -⟩ := Option.bind_eq_some_iff.1 hrow
    exact ⟨point, hpoint, by simp [hpair]⟩
  · rintro ⟨point, hpoint, hsome⟩
    obtain ⟨pair, hpair⟩ := Option.isSome_iff_exists.1 hsome
    have hlength : 5 < fields.length := (List.getElem?_eq_some_iff.1 hpoint).1
    have hthird : fields[3]? = some fields[3] := List.getElem?_eq_getElem (by omega)
    have hfourth : fields[4]? = some fields[4] := List.getElem?_eq_getElem (by omega)
    simp [matchedRow?, hpoint, hpair, hthird, hfourth]

theorem isSome_ofLine?_iff (fields : List String) : (BatchMatch.ofLine? fields).isSome = true ↔ SaysRow fields := by
  unfold BatchMatch.ofLine? SaysRow
  cases fields[0]? with
  | none => simp
  | some id =>
    by_cases hid : Text.trim id = ""
    · simp [hid]
    · cases fields[2]? with
      | none => simp [hid]
      | some status =>
        simp only [Option.bind_eq_bind, Option.bind_some, if_neg hid, Bool.or_eq_true]
        split
        next hmissed =>
          obtain hmissed | hmissed := hmissed <;> simp [hid, hmissed]
        next hmissed =>
          rw [not_or] at hmissed
          split
          next hmatch => simp [hid, hmissed, hmatch, isSome_matchedRow?_iff]
          next hmatch => simp [hmissed, hmatch]

/-- A response of records in quotes has their rows, in their order, and then the rows of whatever is behind them.
A record has a row just if it has an identifier and a status, and a point too if its status is that of a match. -/
theorem parseResponse_quotedText_append (records : List (List String)) (hrecords : ∀ fields ∈ records, fields ≠ [])
    (rest : String) (hrest : rest.toList.head? ≠ some '\uFEFF') :
    parseResponse (String.ofList (quotedText records) ++ rest) =
        records.filterMap BatchMatch.ofLine? ++ parseResponse rest ∧
      ∀ fields, (BatchMatch.ofLine? fields).isSome = true ↔ SaysRow fields := by
  refine ⟨?_, isSome_ofLine?_iff⟩
  rw [parseResponse_eq, String.toList_append, String.toList_ofList, unmarked_quotedText_append hrecords hrest,
    readAll_quotedText hrecords, rowsIn_append, parseResponse_eq, unmarked_of_head? hrest, rowsIn,
    List.filterMap_map]
  simp [Function.comp_def]

/-- A field that breaks its line and holds quotes leaves the rows around it alone. -/
theorem parseResponse_broken_field :
    let records := [["0", "1 \"Elm\" St\n2", "Match", "Exact", "1 Elm", "-80.5, 35.25"], ["1", "", "Tie"]]
    (∀ fields ∈ records, fields ≠ []) ∧ "2,,No_Match".toList.head? ≠ some '\uFEFF' ∧
      (parseResponse (String.ofList (quotedText records) ++ "2,,No_Match")).map BatchMatch.id = ["0", "1", "2"] ∧
      ∀ fields, (BatchMatch.ofLine? fields).isSome = true ↔ SaysRow fields := by
  intro records
  have hrecords : ∀ fields ∈ records, fields ≠ [] := by decide
  have hrest : "2,,No_Match".toList.head? ≠ some '\uFEFF' := by decide
  obtain ⟨hrows, hsays⟩ := parseResponse_quotedText_append records hrecords "2,,No_Match" hrest
  refine ⟨hrecords, hrest, ?_, hsays⟩
  rw [hrows]
  decide +kernel

end Geocoding.Census
