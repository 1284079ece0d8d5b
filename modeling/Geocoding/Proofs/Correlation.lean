import Geocoding.Proofs.BatchFile
import Geocoding.Proofs.BatchResponse
import Mathlib.Data.List.Nodup
import Mathlib.Tactic.SplitIfs

/-!
# Which line answers which address

The answers of a batch are tagged with ids of its addresses and with nothing else, whatever the service sends
back. The last line with an id decides what its addresses get; blank addresses need no line. The order of the
lines plays no other part, except that a byte order mark is text in all lines but the first.
-/

namespace Geocoding

theorem Answers.get?_insertAll (answers : Answers) (rows : List (String × Resolution)) (id : String) :
    (answers.insertAll rows).get? id = (rows.reverse.lookup id).or (answers.get? id) := by
  have hlatest : (answers.insertAll rows).latest = rows.reverse ++ answers.latest := by
    induction rows generalizing answers with
    | nil => rfl
    | cons row rows ih => rw [insertAll, List.foldl_cons, ← insertAll, ih, insert]; simp
  rw [get?, hlatest, List.lookup_append]
  rfl

namespace Census

open Csv

/-- The last row with an id. -/
def lastWith (id : String) (lines : List BatchMatch) : Option BatchMatch :=
  (lines.filter (·.id = id)).getLast?

theorem mem_present {addresses : List Address} {a : Address} :
    a ∈ present addresses ↔ a ∈ addresses ∧ a.isBlank = false := by
  simp [present]

theorem lookup_map_id {α : Type} (rows : List BatchMatch) (f : BatchMatch → α) (id : String) :
    (rows.map fun m => (m.id, f m)).lookup id = (rows.filter (·.id = id)).head?.map f := by
  induction rows with
  | nil => rfl
  | cons row rows ih =>
    rw [List.map_cons, List.lookup_cons, List.filter_cons, ih]
    by_cases h : row.id = id
    · simp [h]
    · simp [h, beq_false_of_ne (Ne.symm h)]

theorem lookup_correlate (submitted : List String) (lines : List BatchMatch) (id : String) :
    (correlate submitted lines).reverse.lookup id =
      if id ∈ submitted then (lastWith id lines).map BatchMatch.toResolution else none := by
  have hfilter : (lines.filter fun m => submitted.contains m.id).filter (·.id = id) =
      if id ∈ submitted then lines.filter (·.id = id) else [] := by
    rw [List.filter_filter]
    split
    next hmem => exact List.filter_congr fun m _ => by by_cases h : m.id = id <;> simp [h, hmem]
    next hmem =>
      refine List.filter_eq_nil_iff.2 fun m _ => ?_
      by_cases h : m.id = id <;> simp [h, hmem]
  rw [correlate, ← List.map_reverse, lookup_map_id, List.filter_reverse, List.head?_reverse, hfilter]
  split <;> rfl

theorem lookup_unmatched (addresses : List Address) (id : String) :
    (addresses.map fun a => (a.id, Resolution.unmatched source)).lookup id =
      if id ∈ addresses.map (·.id) then some (.unmatched source) else none := by
  induction addresses with
  | nil => rfl
  | cons a addresses ih =>
    rw [List.map_cons, List.lookup_cons, ih]
    by_cases h : id = a.id
    · simp [h]
    · simp [h, beq_false_of_ne h]

/-- What there is under an id. -/
theorem get?_answersOf (addresses : List Address) (lines : List BatchMatch) (id : String) :
    (answersOf addresses lines).get? id =
      (if id ∈ (present addresses).map (·.id) then (lastWith id lines).map BatchMatch.toResolution else none).or
        (if id ∈ (addresses.filter Address.isBlank).map (·.id) then some (.unmatched source) else none) := by
  have hblank : id ∈ (addresses.filter Address.isBlank).reverse.map (·.id) ↔
      id ∈ (addresses.filter Address.isBlank).map (·.id) := by simp only [List.map_reverse, List.mem_reverse]
  rw [answersOf, Answers.get?_insertAll, Answers.get?_insertAll, lookup_correlate, ← List.map_reverse,
    lookup_unmatched, Answers.get?_empty, Option.or_none, if_congr hblank rfl rfl]

/-- Where an answer comes from. -/
theorem origin_of_get? {addresses : List Address} {lines : List BatchMatch} {id : String} {r : Resolution}
    (h : (answersOf addresses lines).get? id = some r) :
    (∃ a ∈ addresses, a.isBlank = false ∧ a.id = id) ∧ (lastWith id lines).map BatchMatch.toResolution = some r ∨
      (∃ a ∈ addresses, a.isBlank = true ∧ a.id = id) ∧ r = .unmatched source := by
  rw [get?_answersOf, Option.or_eq_some_iff] at h
  rcases h with hrow | ⟨-, hblank⟩
  · split at hrow
    next hid =>
      obtain ⟨a, ha, rfl⟩ := List.mem_map.1 hid
      exact .inl ⟨⟨a, (mem_present.1 ha).1, (mem_present.1 ha).2, rfl⟩, hrow⟩
    next => cases hrow
  · split at hblank
    next hid =>
      obtain ⟨a, ha, rfl⟩ := List.mem_map.1 hid
      exact .inr ⟨⟨a, (List.mem_filter.1 ha).1, (List.mem_filter.1 ha).2, rfl⟩, (Option.some.inj hblank).symm⟩
    next => cases hblank

/-- If no id comes twice, the row with an id is the last one. -/
theorem lastWith_eq_some_iff {lines : List BatchMatch} (hnodup : (lines.map (·.id)).Nodup) {id : String}
    {row : BatchMatch} : lastWith id lines = some row ↔ row ∈ lines ∧ row.id = id := by
  have hmem {row : BatchMatch} (h : lastWith id lines = some row) : row ∈ lines ∧ row.id = id := by
    simpa using List.mem_filter.1 (List.mem_of_getLast? h)
  refine ⟨hmem, fun ⟨hrow, hid⟩ => ?_⟩
  have hne : lines.filter (·.id = id) ≠ [] := List.ne_nil_of_mem (List.mem_filter.2 ⟨hrow, by simpa using hid⟩)
  obtain ⟨last, hlast⟩ : ∃ last, lastWith id lines = some last :=
    Option.isSome_iff_exists.1 (List.getLast?_isSome.2 hne)
  obtain ⟨hlines, hid'⟩ := hmem hlast
  rw [hlast, List.inj_on_of_nodup_map hnodup hlines hrow (hid'.trans hid.symm)]

theorem lastWith_perm {lines lines' : List BatchMatch} (h : lines.Perm lines') (hnodup : (lines.map (·.id)).Nodup)
    (id : String) : lastWith id lines = lastWith id lines' := by
  ext row
  rw [lastWith_eq_some_iff hnodup, lastWith_eq_some_iff ((h.map _).nodup_iff.1 hnodup), h.mem_iff]

/-! ## Responses -/

/-- Every request is answered by that text. -/
def Serves {σ : Type} (w : World Http.web σ) (body : String) : Prop :=
  ∀ request s, ∃ response s', w.answer request s = (some (.ok response), s') ∧ response.status = 200 ∧
    response.text? = some body

theorem run_submit {σ : Type} {w : World Http.web σ} {body : String} (hserves : Serves w body) (client : Client)
    (rows : List BatchRow) (s : σ) :
    ((client.submit rows).run w s).1 = some (
      if rows = [] then .ok []
      else if maxRows < rows.length then .error (oversized rows.length)
      else if w.fired s then .error .cancelled
      else .ok (parseResponse body)) := by
  by_cases hnone : rows = []
  · rw [if_pos hnone, hnone]
    rfl
  by_cases hsize : maxRows < rows.length
  · simp [Client.submit, hnone, hsize, Program.run]
  rw [submit_eq client rows hnone (Nat.not_lt.1 hsize), if_neg hnone, if_neg hsize, Program.run]
  cases hfired : w.fired s with
  | true => rfl
  | false =>
    obtain ⟨response, s', hanswer, hstatus, htext⟩ := hserves (client.batchRequest rows) s
    simp [Program.run, hanswer, batchOutcome, hstatus, htext]

/-- What comes of a batch if the service answers with that text. -/
theorem run_geocodeBulk {σ : Type} {w : World Http.web σ} {body : String} (hserves : Serves w body)
    (client : Client) (addresses : List Address) (s : σ) :
    ((client.geocodeBulk addresses).run w s).1 = some (
      if present addresses = [] then .ok (answersOf addresses [])
      else if maxRows < (present addresses).length then .error (oversized (present addresses).length)
      else if w.fired s then .error .cancelled
      else .ok (answersOf addresses (parseResponse body))) := by
  have hsubmit := run_submit hserves client ((present addresses).map BatchRow.ofAddress) s
  rw [List.length_map, if_congr List.map_eq_nil_iff rfl rfl] at hsubmit
  rw [geocodeBulk_eq, Program.run_bind]
  generalize (client.submit ((present addresses).map BatchRow.ofAddress)).run w s = ended at hsubmit
  obtain ⟨outcome, s'⟩ := ended
  obtain rfl := hsubmit
  simp only [Program.run]
  split_ifs <;> rfl

/-- If a batch has answers, they are made of all lines of the response. -/
theorem eq_answersOf {σ : Type} {w : World Http.web σ} {body : String} (hserves : Serves w body) {client : Client}
    {addresses : List Address} {s : σ} {m : Answers}
    (h : ((client.geocodeBulk addresses).run w s).1 = some (.ok m)) :
    m = answersOf addresses (parseResponse body) ∧ (present addresses).length ≤ maxRows := by
  rw [run_geocodeBulk hserves, Option.some.injEq] at h
  split_ifs at h with hnone hsize
  · rw [← Except.ok.inj h, hnone]
    exact ⟨by simp [answersOf, hnone, correlate], Nat.zero_le _⟩
  · exact ⟨(Except.ok.inj h).symm, Nat.not_lt.1 hsize⟩

theorem geocodeBulk_ok {σ : Type} {w : World Http.web σ} {body : String} (hserves : Serves w body) (client : Client)
    (addresses : List Address) {s : σ} (hsize : (present addresses).length ≤ maxRows) (hfired : w.fired s = false) :
    ∃ m, ((client.geocodeBulk addresses).run w s).1 = some (.ok m) := by
  rw [run_geocodeBulk hserves, if_neg (Nat.not_lt.2 hsize), hfired]
  split_ifs with hnone hnever
  · exact ⟨_, rfl⟩
  · cases hnever
  · exact ⟨_, rfl⟩

/-! ## The order of the lines -/

/-- The line is a record, and no byte order mark is at its start. -/
def IsRecord (line : List Char) : Prop :=
  (∃ fields, WritesRecord fields line) ∧ line.head? ≠ some '\uFEFF'

theorem lined_of_eq {lines : List (List Char)} {text : List Char} (h : text = lines.flatMap (· ++ ['\n'])) :
    Lined lines text := h ▸ lined_terminated lines

theorem isRecord_joinFields (f : String) (fs : List String)
    (hmark : (joinFields ((f :: fs).map fun f => writeField f.toList)).head? ≠ some '\uFEFF') :
    IsRecord (joinFields ((f :: fs).map fun f => writeField f.toList)) :=
  ⟨⟨_, writesRecord_joinFields (fun f => writes_writeField f.toList) f fs⟩, hmark⟩

/-- The rows of lines that are records, whatever order they are in. -/
theorem parseResponse_perm {lines lines' : List (List Char)} {body body' : String} (hlines : Lined lines body.toList)
    (hlines' : Lined lines' body'.toList) (hperm : lines.Perm lines') (hrecord : ∀ line ∈ lines, IsRecord line) :
    (parseResponse body).Perm (parseResponse body') := by
  have hread {lines : List (List Char)} {body : String} (hlines : Lined lines body.toList)
      (hrecord : ∀ line ∈ lines, IsRecord line) :
      parseResponse body = rowsIn (lines.flatMap (Reader.readAll .chars)) := by
    have hasRead : asRead lines = lines := by
      cases lines with
      | nil => rfl
      | cons line lines => rw [asRead, unmarked_of_head? (hrecord line List.mem_cons_self).2]
    have hlined := hlines.unmarked
    rw [hasRead] at hlined
    rw [parseResponse_eq, hlined.readAll_eq]
    intro line hline
    obtain ⟨⟨fields, hwrites⟩, -⟩ := hrecord line hline
    exact hwrites.closed
  rw [hread hlines hrecord, hread hlines' fun line hline => hrecord line (hperm.mem_iff.2 hline)]
  exact (hperm.flatMap_right _).filterMap _

/-- Each id of the answers is the id of an address. The last row with an id answers the addresses that are not
blank; the blank ones are answered without a row, and the order of the lines makes no difference. -/
theorem geocodeBulk_correlates {σ : Type} (client : Client) (addresses : List Address) (w : World Http.web σ) (s : σ)
    (body : String) (m : Answers) (hserves : Serves w body)
    (hok : ((client.geocodeBulk addresses).run w s).1 = some (.ok m)) :
    (∀ id r, m.get? id = some r → ∃ a ∈ addresses, a.id = id) ∧
    (∀ a ∈ addresses, a.isBlank = true → (m.get? a.id).isSome) ∧
    (∀ a ∈ addresses, a.isBlank = false → ∀ row, lastWith a.id (parseResponse body) = some row →
      m.get? a.id = some row.toResolution) ∧
    (∀ a ∈ addresses, a.isBlank = false → lastWith a.id (parseResponse body) = none → ∀ r, m.get? a.id = some r →
      (∃ b ∈ addresses, b.isBlank = true ∧ b.id = a.id) ∧ r = .unmatched source) ∧
    (∀ lines lines' body', Lined lines body.toList → Lined lines' body'.toList → lines.Perm lines' →
      (∀ line ∈ lines, IsRecord line) → ((parseResponse body).map (·.id)).Nodup →
      ∀ {τ : Type} (w' : World Http.web τ) (s' : τ), Serves w' body' → w'.fired s' = false →
        ∃ m', ((client.geocodeBulk addresses).run w' s').1 = some (.ok m') ∧ ∀ id, m'.get? id = m.get? id) := by
  obtain ⟨rfl, hsize⟩ := eq_answersOf hserves hok
  refine ⟨fun id r hget => ?_, fun a ha hblank => ?_, fun a ha hblank row hrow => ?_,
    fun a ha hblank hnone r hget => ?_, ?_⟩
  · obtain ⟨⟨a, ha, -, hid⟩, -⟩ | ⟨⟨a, ha, -, hid⟩, -⟩ := origin_of_get? hget <;> exact ⟨a, ha, hid⟩
  · have hid : a.id ∈ (addresses.filter Address.isBlank).map (·.id) :=
      List.mem_map_of_mem (List.mem_filter.2 ⟨ha, hblank⟩)
    rw [get?_answersOf, if_pos hid, Option.isSome_or]
    simp
  · have hid : a.id ∈ (present addresses).map (·.id) := List.mem_map_of_mem (mem_present.2 ⟨ha, hblank⟩)
    rw [get?_answersOf, if_pos hid, hrow]
    rfl
  · obtain ⟨-, hrow⟩ | hblank := origin_of_get? hget
    · cases hnone ▸ hrow
    · exact hblank
  · intro lines lines' body' hlines hlines' hperm hrecord hnodup τ w' s' hserves' hfired'
    obtain ⟨m', hrun⟩ := geocodeBulk_ok hserves' client addresses hsize hfired'
    obtain ⟨rfl, -⟩ := eq_answersOf hserves' hrun
    refine ⟨_, hrun, fun id => ?_⟩
    have hrows := parseResponse_perm hlines hlines' hperm hrecord
    rw [get?_answersOf, get?_answersOf, lastWith_perm hrows hnodup]

/-- A service that answers every request with these bytes. -/
def serving (body : Bytes) : World Http.web Unit :=
  World.immediate (fun _ => false) fun _ s => (some (.ok { body }), s)

theorem serves_serving {bytes : Bytes} {body : String} (h : Text.decodeBody "text/plain" bytes = body) :
    Serves (serving bytes) body :=
  fun _ _ => ⟨{ body := bytes }, (), rfl, rfl, congrArg some h⟩

/-- Four addresses, of which two share an id, two are blank and one is not answered; the lines of the response
may be exchanged. -/
theorem geocodeBulk_correlates_four :
    let client : Client := { base := "", benchmark := "Public_AR_Current", vintage := "Current_Current" }
    let addresses : List Address :=
      [{ id := "7" }, { id := "7", street := "1 Elm St" }, { id := "8" }, { id := "6", street := "5 Oak St" }]
    let body := "7,1 Elm St,Match,Exact,1 ELM ST,\"-80.2,25.8\",5,L\n9,x,Tie\n"
    let body' := "9,x,Tie\n7,1 Elm St,Match,Exact,1 ELM ST,\"-80.2,25.8\",5,L\n"
    ∃ (w w' : World Http.web Unit) (m m' : Answers), Serves w body ∧ Serves w' body' ∧
      ((client.geocodeBulk addresses).run w ()).1 = some (.ok m) ∧
      ((client.geocodeBulk addresses).run w' ()).1 = some (.ok m') ∧
      (∃ r, m.get? "7" = some r ∧ r.matched = true) ∧ (m.get? "8").isSome ∧ m.get? "6" = none ∧
      m.get? "9" = none ∧ ∀ id, m'.get? id = m.get? id := by
  intro client addresses body body'
  have hserves : Serves (serving (Text.encode body)) body := serves_serving (by decide +kernel)
  have hserves' : Serves (serving (Text.encode body')) body' := serves_serving (by decide +kernel)
  obtain ⟨m, hok⟩ := geocodeBulk_ok (s := ()) hserves client addresses (by decide +kernel) rfl
  obtain ⟨hids, hblank, hrow, hnone, horder⟩ := geocodeBulk_correlates client addresses _ () body m hserves hok
  obtain ⟨m', hok', hsame⟩ := horder
    ["7,1 Elm St,Match,Exact,1 ELM ST,\"-80.2,25.8\",5,L".toList, "9,x,Tie".toList] _ body'
    (lined_of_eq (by decide +kernel)) (lined_of_eq (by decide +kernel)) (List.Perm.swap _ _ _)
    (List.forall_mem_cons.2 ⟨isRecord_joinFields "7" ["1 Elm St", "Match", "Exact", "1 ELM ST", "-80.2,25.8", "5", "L"]
      (by decide), List.forall_mem_singleton.2 (isRecord_joinFields "9" ["x", "Tie"] (by decide))⟩)
    (by decide +kernel) _ () hserves' rfl
  have hlast : ∃ row, lastWith "7" (parseResponse body) = some row :=
    Option.isSome_iff_exists.1 (by decide +kernel)
  have hmatched : ∀ row, lastWith "7" (parseResponse body) = some row → row.toResolution.matched = true := by
    decide +kernel
  have hblank6 : ∀ a ∈ addresses, ¬ (a.isBlank = true ∧ a.id = "6") := by decide +kernel
  have hids9 : ∀ a ∈ addresses, a.id ≠ "9" := by decide
  refine ⟨_, _, m, m', hserves, hserves', hok, hok', ?_, ?_, ?_, ?_, hsame⟩
  · obtain ⟨row, hlast⟩ := hlast
    exact ⟨_, hrow { id := "7", street := "1 Elm St" } (by simp [addresses]) (by decide +kernel) row hlast,
      hmatched row hlast⟩
  · exact hblank { id := "8" } (by simp [addresses]) (by decide +kernel)
  · refine Option.eq_none_iff_forall_ne_some.2 fun r hget => ?_
    obtain ⟨⟨a, ha, hid⟩, -⟩ := hnone { id := "6", street := "5 Oak St" } (by simp [addresses]) (by decide +kernel)
      (by decide +kernel) r hget
    exact hblank6 a ha hid
  · refine Option.eq_none_iff_forall_ne_some.2 fun r hget => ?_
    obtain ⟨a, ha, hid⟩ := hids "9" r hget
    exact hids9 a ha hid

/-- In front of all other lines a byte order mark is dropped; behind one it belongs to the id. -/
theorem geocodeBulk_reordered_mark :
    let client : Client := { base := "", benchmark := "Public_AR_Current", vintage := "Current_Current" }
    let addresses : List Address := [{ id := "0", street := "1 Elm St" }]
    let lines := ["1,y,Tie".toList, "\uFEFF0,x,Tie".toList]
    let lines' := ["\uFEFF0,x,Tie".toList, "1,y,Tie".toList]
    let body := "1,y,Tie\n\uFEFF0,x,Tie\n"
    let body' := "\uFEFF0,x,Tie\n1,y,Tie\n"
    Lined lines body.toList ∧ Lined lines' body'.toList ∧ lines.Perm lines' ∧
      (∀ line ∈ lines, ∃ fields, WritesRecord fields line) ∧ ((parseResponse body).map (·.id)).Nodup ∧
      ((parseResponse body').map (·.id)).Nodup ∧
    ∃ (w w' : World Http.web Unit) (m m' : Answers), Serves w body ∧ Serves w' body' ∧
      ((client.geocodeBulk addresses).run w ()).1 = some (.ok m) ∧
      ((client.geocodeBulk addresses).run w' ()).1 = some (.ok m') ∧ m'.get? "0" ≠ m.get? "0" := by
  intro client addresses lines lines' body body'
  refine ⟨lined_of_eq (by decide +kernel), lined_of_eq (by decide +kernel), List.Perm.swap _ _ _, ?_,
    by decide +kernel, by decide +kernel, ?_⟩
  · exact List.forall_mem_cons.2 ⟨⟨_, writesRecord_joinFields (fun f => writes_writeField f.toList) "1" ["y", "Tie"]⟩,
      List.forall_mem_singleton.2
        ⟨_, writesRecord_joinFields (fun f => writes_writeField f.toList) "\uFEFF0" ["x", "Tie"]⟩⟩
  have hserves : Serves (serving (Text.encode body)) body := serves_serving (by decide +kernel)
  -- A first mark is taken for one of the encoding.
  have hserves' : Serves (serving (Text.encode ("\uFEFF" ++ body'))) body' := serves_serving (by decide +kernel)
  obtain ⟨m, hok⟩ := geocodeBulk_ok (s := ()) hserves client addresses (by decide +kernel) rfl
  obtain ⟨m', hok'⟩ := geocodeBulk_ok (s := ()) hserves' client addresses (by decide +kernel) rfl
  refine ⟨_, _, m, m', hserves, hserves', hok, hok', ?_⟩
  rw [(eq_answersOf hserves hok).1, (eq_answersOf hserves' hok').1]
  decide +kernel

end Census

end Geocoding
