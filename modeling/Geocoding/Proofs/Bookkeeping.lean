import Geocoding.Proofs.Bookkeeping.Notes
import Geocoding.Proofs.Census
import Geocoding.Proofs.Rows
import Geocoding.Proofs.Steady.Memory
import Mathlib.Data.List.TakeWhile

/-!
# The books of a bulk run

Whatever its collaborators answer, a bulk run that nothing disturbs accounts for every row once. It submits
the rows that are neither hits nor matched by a leading provider, in their order; each of those is matched by
its submission or taken up again, and not both; and what a row comes to is written once, and passed to the
cache once unless it came from there.
-/

namespace Geocoding.Engine

variable {σ : Type} {e : Engine} {k : Setting σ} {b : BulkProvider}

/-- What may be said of a row that has come to its resolution before anything was submitted: the cache knew it,
or a leading provider matched it and it was kept. -/
def earlyRoutes (e : Engine) (w : Row × Resolution) : List (List Note) :=
  [[.hit w.2], .led w.2 :: e.keptNotes w.1.key w.2]

/-- What may be said of a row that was submitted: the submission matched it and it was kept, or it was taken up
again, and was kept or came from the cache. -/
def lateRoutes (e : Engine) (w : Row × Resolution) : List (List Note) :=
  [.bulk w.2 :: e.keptNotes w.1.key w.2, .rerun :: e.keptNotes w.1.key w.2, [.rerun, .known w.2]]

/-- What may be said of a row. -/
def routes (e : Engine) (w : Row × Resolution) : List (List Note) :=
  e.earlyRoutes w ++ e.lateRoutes w

/-- The row came to its resolution before anything was submitted. -/
def Note.early : Note → Bool
  | .hit _ | .led _ => true
  | _ => false

/-! ## Rows that are taken away -/

/-- The rows that results are about and those that are left are all rows. -/
theorem perm_without {rows : List Row} {ws : List (Row × Resolution)} (hrows : (rows.map Row.index).Nodup)
    (hws : (ws.map Prod.fst).Nodup) (hsub : ws.map Prod.fst ⊆ rows) :
    (ws.map Prod.fst ++ without rows ws).Perm rows := by
  -- Rows are taken away by their positions, which is by themselves.
  have hmem : ∀ row ∈ rows, (ws.any fun w => w.1.index == row.index) = true ↔ row ∈ ws.map Prod.fst := by
    intro row hrow
    rw [List.any_eq_true, List.mem_map]
    constructor
    · rintro ⟨w, hw, heq⟩
      exact ⟨w, hw, eq_of_index_eq hrows (hsub (List.mem_map_of_mem hw)) hrow (by simpa using heq)⟩
    · rintro ⟨w, hw, rfl⟩
      exact ⟨w, hw, by simp⟩
  have htaken : (ws.map Prod.fst).Perm (rows.filter fun row => ws.any fun w => w.1.index == row.index) := by
    apply (List.perm_ext_iff_of_nodup hws (hrows.of_map.filter _)).2
    intro row
    rw [List.mem_filter]
    exact ⟨fun h => ⟨hsub h, (hmem row (hsub h)).2 h⟩, fun h => (hmem row h.1).1 h.2⟩
  exact (htaken.append_right _).trans (List.filter_append_perm _ rows)

/-- A row that is left is not one of those that results are about. -/
theorem not_mem_without {rows : List Row} {ws : List (Row × Resolution)} {w : Row × Resolution} (hw : w ∈ ws) :
    w.1.index ∉ (without rows ws).map Row.index := by
  intro hmem
  obtain ⟨row, hrow, heq⟩ := List.mem_map.1 hmem
  have hnone := (List.mem_filter.1 hrow).2
  rw [Bool.not_eq_true', List.any_eq_false] at hnone
  exact hnone w hw (by simpa using heq.symm)

/-! ## Submissions -/

theorem keepAll_told {ws : List (Row × Resolution)} {t : List Event} (hws : (ws.map Prod.fst).Nodup)
    (h : (keepAll ws).Logs e t ()) :
    (∀ w ∈ ws, (notes w.1 t).Perm (e.keptNotes w.1.key w.2)) ∧
      (∀ row ∉ ws.map Prod.fst, notes row t = []) ∧ submissions t = [] := by
  obtain ⟨t₁, t₂, results, rfl, hpool, rfl, -⟩ := h
  have hrows : (ws.map fun w => (⟨w.1, .keep w.2⟩ : Job)).map Job.row = ws.map Prod.fst := by
    rw [List.map_map]
    rfl
  have htold := hpool.told (hrows ▸ hws)
  rw [List.append_nil]
  refine ⟨?_, fun row hrow => htold.others row (hrows ▸ hrow), htold.submissions⟩
  intro w hw
  obtain ⟨outcome, ns, -, hns, -, rfl⟩ := htold.of_mem (hrows ▸ hws) (List.mem_map_of_mem hw)
  exact hns

/-- What submitting rows says of them: those that were matched are kept, and nothing is said of the others,
which are left to jobs. -/
structure Submitted (e : Engine) (rows : List Row) (t : List Event) (settled : Settled) : Prop where
  once : (settled.results.map Prod.fst ++ settled.leftovers.map Job.row).Perm rows
  results : ∀ w ∈ settled.results, (notes w.1 t).Perm (.bulk w.2 :: e.keptNotes w.1.key w.2)
  leftovers : ∀ j ∈ settled.leftovers, (∃ first prior, j.stage = .resolve first prior) ∧ notes j.row t = []
  others : ∀ row, row.index ∉ rows.map Row.index → notes row t = []

theorem Submitted.nothing : e.Submitted [] [] {} :=
  ⟨.refl _, by simp, by simp, by simp⟩

theorem Submitted.result_mem {rows : List Row} {t : List Event} {settled : Settled}
    (h : e.Submitted rows t settled) {w : Row × Resolution} (hw : w ∈ settled.results) :
    w.1.index ∈ rows.map Row.index :=
  List.mem_map_of_mem (h.once.subset (List.mem_append_left _ (List.mem_map_of_mem hw)))

theorem Submitted.leftover_mem {rows : List Row} {t : List Event} {settled : Settled}
    (h : e.Submitted rows t settled) {j : Job} (hj : j ∈ settled.leftovers) :
    j.row.index ∈ rows.map Row.index :=
  List.mem_map_of_mem (h.once.subset (List.mem_append_right _ (List.mem_map_of_mem hj)))

theorem Submitted.append {rows rows' : List Row} {t t' : List Event} {settled settled' : Settled}
    (h : e.Submitted rows t settled) (h' : e.Submitted rows' t' settled')
    (hrows : ((rows ++ rows').map Row.index).Nodup) :
    e.Submitted (rows ++ rows') (t ++ t')
      ⟨settled.results ++ settled'.results, settled.leftovers ++ settled'.leftovers⟩ := by
  rw [List.map_append] at hrows
  -- No row is in both parts, so each part says nothing of the rows of the other.
  have hapart := List.disjoint_of_nodup_append hrows
  constructor
  case once =>
    refine List.Perm.trans (List.perm_iff_count.2 ?_) (h.once.append h'.once)
    intro row
    simp only [List.map_append, List.count_append]
    omega
  case results =>
    intro w hw
    rw [notes_append]
    rcases List.mem_append.1 hw with hw | hw
    · rw [h'.others w.1 (hapart (h.result_mem hw)), List.append_nil]
      exact h.results w hw
    · rw [h.others w.1 (fun hin => hapart hin (h'.result_mem hw)), List.nil_append]
      exact h'.results w hw
  case leftovers =>
    intro j hj
    rw [notes_append]
    rcases List.mem_append.1 hj with hj | hj
    · rw [h'.others j.row (hapart (h.leftover_mem hj)), List.append_nil]
      exact h.leftovers j hj
    · rw [h.others j.row (fun hin => hapart hin (h'.leftover_mem hj)), List.nil_append]
      exact h'.leftovers j hj
  case others =>
    intro row hrow
    rw [List.map_append, List.mem_append, not_or] at hrow
    rw [notes_append, h.others row hrow.1, h'.others row hrow.2]
    rfl

/-- The two events of a submission. -/
def submissionLog (position : Nat) (chunk : List Row) (reply : Except Error Answers) : List Event :=
  [.started none (.submit position (chunk.map submitted)),
    .answered none (.submit position (chunk.map submitted)) reply]

theorem submitted_of_refused (position : Nat) (chunk : List Row) (priors : List (Nat × String))
    (error : Error) :
    e.Submitted chunk (submissionLog position chunk (.error error)) ⟨[], chunk.map (unanswered b priors)⟩ where
  once := by simp [unanswered, Function.comp_def]
  results := by simp
  leftovers := List.forall_mem_map.2 fun _ _ => ⟨⟨_, _, rfl⟩, rfl⟩
  others _ _ := rfl

section Answered

variable {priors : List (Nat × String)} {answers : Answers} {row : Row} {chunk : List Row} {position : Nat}

theorem settleRow_cases (b : BulkProvider) (priors : List (Nat × String)) (answers : Answers) (row : Row) :
    (∃ r, settleRow b priors answers row = .inl (row, r) ∧ answers.get? row.index.repr = some r ∧
      r.matched = true) ∨
    ∃ first prior, settleRow b priors answers row = .inr ⟨row, .resolve first prior⟩ ∧
      (answers.get? row.index.repr).filter (·.matched) = none := by
  unfold settleRow
  cases hget : answers.get? row.index.repr with
  | none => exact .inr ⟨_, _, rfl, rfl⟩
  | some r =>
    cases hmatched : r.matched with
    | true => exact .inl ⟨r, by simp [hmatched], rfl, hmatched⟩
    | false => exact .inr ⟨b.position + 1, some b.name, by simp [hmatched], by simp [hmatched]⟩

theorem perm_settled (b : BulkProvider) (priors : List (Nat × String)) (answers : Answers) (chunk : List Row) :
    ((resultsIn (chunk.map (settleRow b priors answers))).map Prod.fst ++
      (jobsIn (chunk.map (settleRow b priors answers))).map Job.row).Perm chunk := by
  induction chunk with
  | nil => exact .refl _
  | cons row chunk ih =>
    rw [List.map_cons]
    obtain ⟨r, hsettle, -⟩ | ⟨first, prior, hsettle, -⟩ := settleRow_cases b priors answers row
    · rw [hsettle]
      exact ih.cons row
    · rw [hsettle]
      exact List.perm_middle.trans (ih.cons row)

theorem any_submitted (chunk : List Row) (row : Row) :
    ((chunk.map submitted).any (·.id == row.index.repr)) = chunk.any (·.index == row.index) := by
  rw [List.any_map]
  apply List.any_congr rfl
  intro row'
  rw [Function.comp_apply, Bool.eq_iff_iff, beq_iff_eq, beq_iff_eq]
  exact repr_injective.eq_iff

theorem notes_submissionLog (hrow : row ∈ chunk) :
    notes row (submissionLog position chunk (.ok answers)) =
      (((answers.get? row.index.repr).filter (·.matched)).map Note.bulk).toList := by
  have hany : ((chunk.map submitted).any (·.id == row.index.repr)) = true := by
    rw [any_submitted, List.any_eq_true]
    exact ⟨row, hrow, by simp⟩
  unfold submissionLog
  rw [notes_cons, notes_singleton]
  exact congrArg Option.toList (if_pos hany)

theorem notes_submissionLog_other (hrow : row.index ∉ chunk.map Row.index) :
    notes row (submissionLog position chunk (.ok answers)) = [] := by
  have hany : ((chunk.map submitted).any (·.id == row.index.repr)) = false := by
    rw [any_submitted, List.any_eq_false]
    intro row' hrow' heq
    exact hrow (List.mem_map.2 ⟨row', hrow', by simpa using heq⟩)
  unfold submissionLog
  rw [notes_cons, notes_singleton]
  exact congrArg Option.toList (if_neg (by simp [hany]))

/-- A chunk that has been answered: what it matched is noted and kept. -/
theorem submitted_of_answered (position : Nat) (hchunk : chunk.Nodup) {t : List Event}
    (hkeep : (keepAll (resultsIn (chunk.map (settleRow b priors answers)))).Logs e t ()) :
    e.Submitted chunk (submissionLog position chunk (.ok answers) ++ t)
      ⟨resultsIn (chunk.map (settleRow b priors answers)), jobsIn (chunk.map (settleRow b priors answers))⟩ ∧
      submissions t = [] := by
  -- Every row of the chunk is a result or a job, and none is both.
  have hperm := perm_settled b priors answers chunk
  have hnodup := hperm.nodup_iff.2 hchunk
  obtain ⟨hkept, hothers, hsubmissions⟩ := keepAll_told hnodup.of_append_left hkeep
  refine ⟨⟨hperm, ?_, ?_, ?_⟩, hsubmissions⟩
  · intro w hw
    obtain ⟨row, hrow, hsettle⟩ := List.mem_map.1 (mem_resultsIn.1 hw)
    obtain ⟨r, hsettled, hget, hmatched⟩ | ⟨first, prior, hsettled, -⟩ := settleRow_cases b priors answers row
    · rw [hsettled, Sum.inl.injEq] at hsettle
      subst hsettle
      rw [notes_append, notes_submissionLog hrow, hget, Option.filter_some, if_pos hmatched]
      exact (hkept _ hw).cons (.bulk r)
    · rw [hsettled] at hsettle
      cases hsettle
  · intro j hj
    obtain ⟨row, hrow, hsettle⟩ := List.mem_map.1 (mem_jobsIn.1 hj)
    obtain ⟨r, hsettled, -⟩ | ⟨first, prior, hsettled, hnone⟩ := settleRow_cases b priors answers row
    · rw [hsettled] at hsettle
      cases hsettle
    · rw [hsettled, Sum.inr.injEq] at hsettle
      have hapart : row ∉ (resultsIn (chunk.map (settleRow b priors answers))).map Prod.fst := fun hin =>
        List.disjoint_of_nodup_append hnodup hin (List.mem_map.2 ⟨j, hj, hsettle ▸ rfl⟩)
      refine ⟨⟨first, prior, hsettle ▸ rfl⟩, ?_⟩
      rw [← hsettle, notes_append, notes_submissionLog hrow, hnone, hothers row hapart]
      rfl
  · intro row hrow
    rw [notes_append, notes_submissionLog_other hrow, hothers row fun hin => hrow ?_]
    · rfl
    · exact List.mem_map_of_mem (hperm.subset (List.mem_append_left _ hin))

end Answered

/-- All chunks are submitted, in order. -/
theorem submitAll_submitted {priors : List (Nat × String)} {chunks : List (List Row)} {t : List Event}
    {settled : Settled} {completed : Bool} (hrows : (chunks.flatten.map Row.index).Nodup)
    (h : (submitAll b priors chunks).Logs e t (settled, completed)) :
    completed = true ∧ submissions t = chunks.map (·.map submitted) ∧
      e.Submitted chunks.flatten t settled := by
  induction chunks generalizing t settled completed with
  | nil =>
    obtain ⟨rfl, ⟨⟩⟩ := h
    exact ⟨rfl, rfl, .nothing⟩
  | cons chunk chunks ih =>
    rw [List.flatten_cons] at hrows
    have hrest : (chunks.flatten.map Row.index).Nodup := by
      rw [List.map_append] at hrows
      exact hrows.of_append_right
    have hchunk : chunk.Nodup := by
      rw [List.map_append] at hrows
      exact hrows.of_append_left.of_map
    obtain ⟨t₁, reply, t₂, rfl, hcall, hlogs⟩ := Plan.Logs.bind
      (p := Plan.ofTask (Program.guarded collaborators (.submit b.position (chunk.map submitted)))) h
    -- The submission is made, and not reported as cancelled, so the run goes on whatever the reply.
    obtain ⟨hreply, rfl⟩ := hcall.ofTask.guarded
    cases reply with
    | error error =>
      have hclear : error.isCancelled = false := by
        cases error <;> first | rfl | exact absurd rfl hreply
      simp only [hclear] at hlogs
      obtain ⟨t₃, ⟨settled', completed'⟩, t₄, rfl, hlater, rfl, ⟨⟩⟩ := Plan.Logs.bind hlogs
      obtain ⟨hcompleted, hsubmissions, hsettled⟩ := ih hrest hlater
      rw [List.append_nil]
      refine ⟨hcompleted, ?_, ?_⟩
      · rw [submissions_append, hsubmissions]
        rfl
      · exact (submitted_of_refused b.position chunk priors error).append hsettled hrows
    | ok answers =>
      obtain ⟨t₃, ⟨⟩, t₄, rfl, hkeep, hlater⟩ := Plan.Logs.bind hlogs
      obtain ⟨t₅, ⟨settled', completed'⟩, t₆, rfl, hlast, rfl, ⟨⟩⟩ := Plan.Logs.bind hlater
      obtain ⟨hcompleted, hsubmissions, hsettled⟩ := ih hrest hlast
      obtain ⟨hanswered, hsubmissions'⟩ := submitted_of_answered b.position hchunk hkeep
      refine ⟨hcompleted, ?_, ?_⟩
      · simp only [submissions_append, hsubmissions, hsubmissions', List.append_nil, List.nil_append]
        rfl
      · rw [List.append_nil, ← List.append_assoc]
        exact hanswered.append hsettled hrows

/-! ## Rows that are taken up again -/

/-- What a run over rows says of them: each comes to one resolution, by one of some routes. -/
structure Fared (routes : Row × Resolution → List (List Note)) (rows : List Row) (t : List Event)
    (writes : List (Row × Resolution)) : Prop where
  once : (writes.map Prod.fst).Perm rows
  routes : ∀ w ∈ writes, ∃ route ∈ routes w, (notes w.1 t).Perm route
  others : ∀ row, row.index ∉ rows.map Row.index → notes row t = []

/-- A run that settles some rows and then goes on with the others. -/
theorem Fared.after {R R' : Row × Resolution → List (List Note)} {rows rest : List Row} {t t' : List Event}
    {ws writes : List (Row × Resolution)} (h : Fared R' rest t' writes) (hR : ∀ w, R' w ⊆ R w)
    (hrows : (rows.map Row.index).Nodup) (honce : (ws.map Prod.fst ++ rest).Perm rows)
    (hws : ∀ w ∈ ws, ∃ route ∈ R w, (notes w.1 t).Perm route) (hrest : ∀ row ∈ rest, notes row t = [])
    (hothers : ∀ row, row.index ∉ rows.map Row.index → notes row t = []) :
    Fared R rows (t ++ t') (ws ++ writes) := by
  have hindex : ((ws.map Prod.fst ++ rest).map Row.index).Perm (rows.map Row.index) := honce.map Row.index
  have hapart := hindex.nodup_iff.2 hrows
  rw [List.map_append] at hapart
  constructor
  case once =>
    rw [List.map_append]
    exact (h.once.append_left _).trans honce
  case routes =>
    intro w hw
    rw [notes_append]
    rcases List.mem_append.1 hw with hw | hw
    · -- Of a row that is settled in one part, the other part has nothing to say.
      have hnot : w.1.index ∉ rest.map Row.index := fun hin =>
        List.disjoint_of_nodup_append hapart (List.mem_map_of_mem (List.mem_map_of_mem hw)) hin
      rw [h.others w.1 hnot, List.append_nil]
      exact hws w hw
    · have hin : w.1 ∈ rest := h.once.subset (List.mem_map_of_mem hw)
      obtain ⟨route, hroute, hperm⟩ := h.routes w hw
      rw [hrest w.1 hin, List.nil_append]
      exact ⟨route, hR w hroute, hperm⟩
  case others =>
    intro row hrow
    have hnot : row.index ∉ rest.map Row.index := fun hin => hrow <|
      hindex.subset (by rw [List.map_append]; exact List.mem_append_right _ hin)
    rw [notes_append, hothers row hrow, h.others row hnot]
    rfl

theorem map_fst_resolved {results : List (Row × Outcome)} (h : ∀ w ∈ results, ∃ r, w.2 = .ok (some r)) :
    (resolved results).map Prod.fst = results.map Prod.fst := by
  induction results with
  | nil => rfl
  | cons w results ih =>
    obtain ⟨row, outcome⟩ := w
    obtain ⟨r, hr⟩ := h _ List.mem_cons_self
    obtain rfl : outcome = .ok (some r) := hr
    have hcons : resolved ((row, .ok (some r)) :: results) = (row, r) :: resolved results := rfl
    rw [hcons, List.map_cons, List.map_cons, ih fun w hw => h w (List.mem_cons_of_mem _ hw)]

theorem map_fst_resolved_sublist (results : List (Row × Outcome)) :
    ((resolved results).map Prod.fst).Sublist (results.map Prod.fst) := by
  induction results with
  | nil => exact .slnil
  | cons w results ih =>
    unfold resolved
    rw [List.filterMap_cons, List.map_cons]
    split
    · exact ih.cons w.1
    next w' hw' =>
      have hfst : w'.1 = w.1 := by
        simp only at hw'
        split at hw' <;> cases hw'
        rfl
      rw [List.map_cons, hfst]
      exact ih.cons_cons w.1

/-- Workers that resolve rows, in whole or in part, tell of each of them with its resolution. -/
theorem finish_told {jobs : List Job} {t : List Event} {writes : List (Row × Resolution)}
    (hrows : (jobs.map Job.row).Nodup)
    (hbring : ∀ j ∈ jobs, ∀ outcome ns, e.Told j outcome ns → ∃ r, outcome = .ok (some r))
    (h : (Plan.finish jobs).Logs e t writes) :
    (writes.map Prod.fst).Perm (jobs.map Job.row) ∧
      (∀ w ∈ writes, ∃ j ∈ jobs, j.row = w.1 ∧
        ∃ ns, (notes w.1 t).Perm ns ∧ e.Told j (.ok (some w.2)) ns) ∧
      (∀ row ∉ jobs.map Job.row, notes row t = []) ∧ submissions t = [] := by
  obtain ⟨t₁, t₂, results, rfl, hpool, rfl, rfl⟩ := h
  have htold := hpool.told hrows
  rw [List.append_nil]
  refine ⟨?_, fun w hw => htold.told _ (mem_resolved.1 hw), htold.others, htold.submissions⟩
  rw [map_fst_resolved fun w hw => ?_]
  · exact htold.rows
  · obtain ⟨j, hj, -, ns, -, hj'⟩ := htold.told w hw
    exact hbring j hj w.2 ns hj'

/-- Rows that are taken up again come to a resolution each. -/
theorem finish_fared {jobs : List Job} {t : List Event} {writes : List (Row × Resolution)}
    (hrows : (jobs.map Job.row).Nodup) (hjobs : ∀ j ∈ jobs, ∃ first prior, j.stage = .resolve first prior)
    (h : (Plan.finish jobs).Logs e t writes) :
    Fared e.lateRoutes (jobs.map Job.row) t writes ∧ submissions t = [] := by
  -- All jobs resolve their rows, so all of them bring something.
  have hresolve : ∀ j ∈ jobs, ∀ outcome ns, e.Told j outcome ns → ∃ r, outcome = .ok (some r) ∧
      (ns = .rerun :: e.keptNotes j.row.key r ∨ ns = [.rerun, .known r]) := by
    intro j hj outcome ns htold
    obtain ⟨first, prior, hstage⟩ := hjobs j hj
    rwa [Told, hstage] at htold
  obtain ⟨honce, htold, hothers, hsubmissions⟩ := finish_told hrows
    (fun j hj outcome ns hj' => (hresolve j hj outcome ns hj').imp fun _ h => h.1) h
  refine ⟨⟨honce, ?_, fun row hrow => hothers row fun hin => hrow (List.mem_map_of_mem hin)⟩, hsubmissions⟩
  intro w hw
  obtain ⟨j, hj, hrow, ns, hns, hj'⟩ := htold w hw
  obtain ⟨r, hr, hroute⟩ := hresolve j hj _ ns hj'
  cases hr
  refine ⟨ns, ?_, hns⟩
  rw [hrow] at hroute
  rcases hroute with rfl | rfl <;> simp [lateRoutes]

/-- Rows that are submitted, and taken up again if they are not matched, come to a resolution each. -/
theorem submitRows_fared {priors : List (Nat × String)} {rows : List Row} {t : List Event}
    {writes : List (Row × Resolution)} (hrows : (rows.map Row.index).Nodup)
    (h : (e.submitRows b priors rows).Logs e t writes) :
    Fared e.lateRoutes rows t writes ∧
      submissions t = (chunksOf (e.submissionSize b - 1) rows).map (·.map submitted) := by
  have hflatten := flatten_chunksOf (e.submissionSize b - 1) rows
  obtain ⟨t₁, ⟨settled, completed⟩, t₂, rfl, hsubmit, hlogs⟩ := Plan.Logs.bind h
  obtain ⟨rfl, hsubmissions, hsettled⟩ := submitAll_submitted (hflatten.symm ▸ hrows) hsubmit
  rw [hflatten] at hsettled
  obtain ⟨t₃, results, t₄, rfl, hfinish, rfl, rfl⟩ := Plan.Logs.bind hlogs
  have hnodup := hsettled.once.nodup_iff.2 hrows.of_map
  obtain ⟨hfared, hsubmissions'⟩ :=
    finish_fared hnodup.of_append_right (fun j hj => (hsettled.leftovers j hj).1) hfinish
  rw [List.append_nil]
  refine ⟨hfared.after (fun _ _ h => h) hrows hsettled.once ?_ ?_ hsettled.others, ?_⟩
  · intro w hw
    exact ⟨_, List.mem_cons_self, hsettled.results w hw⟩
  · exact List.forall_mem_map.2 fun j hj => (hsettled.leftovers j hj).2
  · rw [submissions_append, hsubmissions, hsubmissions', List.append_nil]

/-! ## Whole runs -/

/-- The rows that have not come to a resolution before anything was submitted. -/
def late (rows : List Row) (t : List Event) : List Row :=
  rows.filter fun row => !(notes row t).any Note.early

/-- What is said of rows that a bulk run has come to a resolution for, with what was submitted: the rows that
were not early, in chunks. -/
structure Booked (e : Engine) (b : BulkProvider) (rows : List Row) (t : List Event)
    (writes : List (Row × Resolution)) : Prop where
  fared : Fared e.routes rows t writes
  submissions : Engine.submissions t =
    (chunksOf (e.submissionSize b - 1) (late rows t)).map (·.map submitted)

theorem keptNotes_not_early (key : String) (r : Resolution) : (e.keptNotes key r).any Note.early = false := by
  unfold keptNotes
  split <;> rfl

theorem early_of_route {w : Row × Resolution} {route : List Note} (h : route ∈ e.earlyRoutes w) :
    route.any Note.early = true := by
  simp only [earlyRoutes, List.mem_cons, List.not_mem_nil, or_false] at h
  rcases h with rfl | rfl <;> rfl

theorem late_of_route {w : Row × Resolution} {route : List Note} (h : route ∈ e.lateRoutes w) :
    route.any Note.early = false := by
  have hkept := keptNotes_not_early (e := e) w.1.key w.2
  simp only [lateRoutes, List.mem_cons, List.not_mem_nil, or_false] at h
  rcases h with rfl | rfl | rfl <;> simp [Note.early, hkept]

/-- Where all rows come by late routes, all of them are late. -/
theorem Fared.late_eq {rows : List Row} {t : List Event} {writes : List (Row × Resolution)}
    (h : Fared e.lateRoutes rows t writes) : late rows t = rows := by
  apply List.filter_eq_self.2
  intro row hrow
  obtain ⟨w, hw, rfl⟩ := List.mem_map.1 (h.once.mem_iff.2 hrow)
  obtain ⟨route, hroute, hperm⟩ := h.routes w hw
  rw [hperm.any_eq, late_of_route hroute]
  rfl

theorem submitRows_booked {priors : List (Nat × String)} {rows : List Row} {t : List Event}
    {writes : List (Row × Resolution)} (hrows : (rows.map Row.index).Nodup)
    (h : (e.submitRows b priors rows).Logs e t writes) : e.Booked b rows t writes := by
  obtain ⟨hfared, hsubmissions⟩ := submitRows_fared hrows h
  refine ⟨⟨hfared.once, ?_, hfared.others⟩, ?_⟩
  · intro w hw
    obtain ⟨route, hroute, hperm⟩ := hfared.routes w hw
    exact ⟨route, List.mem_append_right _ hroute, hperm⟩
  · rw [hfared.late_eq]
    exact hsubmissions

/-- What comes before the submissions says of some rows how they came to their resolutions, and nothing of any
other row. -/
structure Opening (e : Engine) (rows : List Row) (t : List Event) (ws : List (Row × Resolution)) : Prop where
  once : (ws.map Prod.fst).Nodup
  rows : ws.map Prod.fst ⊆ rows
  routes : ∀ w ∈ ws, ∃ route ∈ e.earlyRoutes w, (notes w.1 t).Perm route
  others : ∀ row ∉ ws.map Prod.fst, notes row t = []
  submissions : submissions t = []

namespace Opening

variable {rows : List Row} {t t' : List Event} {ws writes : List (Row × Resolution)}

theorem rest (h : e.Opening rows t ws) : ∀ row ∈ without rows ws, notes row t = [] := by
  intro row hrow
  apply h.others
  intro hin
  obtain ⟨w, hw, rfl⟩ := List.mem_map.1 hin
  exact not_mem_without hw (List.mem_map_of_mem hrow)

/-- The rows that are late in a run are late in what comes after its opening. -/
theorem late_eq (h : e.Opening rows t ws) (hrows : (rows.map Row.index).Nodup) :
    late rows (t ++ t') = late (without rows ws) t' := by
  unfold late without
  rw [List.filter_filter]
  apply List.filter_congr
  intro row hrow
  cases hin : ws.any fun w => w.1.index == row.index with
  | true =>
    obtain ⟨w, hw, heq⟩ := List.any_eq_true.1 hin
    obtain rfl := eq_of_index_eq hrows (h.rows (List.mem_map_of_mem hw)) hrow (by simpa using heq)
    obtain ⟨route, hroute, hperm⟩ := h.routes w hw
    have hearly : (notes w.1 t).any Note.early = true := hperm.any_eq.trans (early_of_route hroute)
    simp [notes_append, hearly]
  | false =>
    have hnone : notes row t = [] := h.rest row (List.mem_filter.2 ⟨hrow, by simp [hin]⟩)
    simp [notes_append, hnone]

/-- A run that is in order for the rows that its opening leaves is in order for all rows. -/
theorem booked (h : e.Opening rows t ws) (hrows : (rows.map Row.index).Nodup)
    (hrest : e.Booked b (without rows ws) t' writes) : e.Booked b rows (t ++ t') (ws ++ writes) := by
  constructor
  case fared =>
    refine hrest.fared.after (fun _ _ hroute => hroute) hrows (perm_without hrows h.once h.rows) ?_ h.rest ?_
    · intro w hw
      obtain ⟨route, hroute, hperm⟩ := h.routes w hw
      exact ⟨route, List.mem_append_left _ hroute, hperm⟩
    · intro row hrow
      exact h.others row fun hin => hrow (List.mem_map_of_mem (h.rows hin))
  case submissions =>
    rw [h.late_eq hrows, submissions_append, h.submissions, List.nil_append]
    exact hrest.submissions

end Opening

theorem map_row_jobs (rows : List Row) (stage : Stage) :
    (rows.map fun row => (⟨row, stage⟩ : Job)).map Job.row = rows := by
  rw [List.map_map]
  exact List.map_id rows

/-- The leading providers are asked about all rows, and what they match is kept. -/
theorem opening_of_leading {rows : List Row} {stop : Nat} {t t' : List Event}
    {results : List (Row × Resolution)} (hrows : rows.Nodup)
    (hlead : (Plan.finish (rows.map fun row => ⟨row, .leading stop⟩)).Logs e t results)
    (hkeep : (keepAll (results.filter (·.2.matched))).Logs e t' ()) :
    e.Opening rows (t ++ t') (results.filter (·.2.matched)) := by
  have hjobs := map_row_jobs rows (.leading stop)
  have hbring : ∀ j ∈ rows.map fun row => (⟨row, .leading stop⟩ : Job), ∀ outcome ns,
      e.Told j outcome ns → ∃ r, outcome = .ok (some r) := by
    intro j hj outcome ns htold
    obtain ⟨row, -, rfl⟩ := List.mem_map.1 hj
    exact htold.imp fun _ h => h.1
  obtain ⟨honce, htold, hothers, hsubmissions⟩ := finish_told (hjobs.symm ▸ hrows) hbring hlead
  rw [hjobs] at honce hothers
  -- A leading pass stores nothing by itself: it notes a match and no more.
  have hled : ∀ w ∈ results, (notes w.1 t).Perm (ledNotes (.leading stop) w.2) := by
    intro w hw
    obtain ⟨j, hj, -, ns, hns, hj'⟩ := htold w hw
    obtain ⟨row, -, rfl⟩ := List.mem_map.1 hj
    obtain ⟨r, ⟨⟩, rfl⟩ := hj'
    exact hns
  have hnodup : ((results.filter (·.2.matched)).map Prod.fst).Nodup :=
    (honce.nodup_iff.2 hrows).sublist (List.filter_sublist.map _)
  obtain ⟨hkept, hunkept, hsubmissions'⟩ := keepAll_told hnodup hkeep
  constructor
  case once => exact hnodup
  case rows =>
    intro row hrow
    exact honce.subset ((List.filter_sublist.map _).subset hrow)
  case routes =>
    intro w hw
    obtain ⟨hmem, hmatched⟩ := List.mem_filter.1 hw
    have hnote := hled w hmem
    rw [ledNotes, if_pos hmatched] at hnote
    refine ⟨_, List.mem_cons_of_mem _ List.mem_cons_self, ?_⟩
    rw [notes_append]
    exact hnote.append (hkept w hw)
  case others =>
    intro row hrow
    rw [notes_append, hunkept row hrow, List.append_nil]
    -- The row may be one that was asked about in vain, or none of the rows at all.
    by_cases hin : row ∈ rows
    · obtain ⟨w, hw, rfl⟩ := List.mem_map.1 (honce.mem_iff.2 hin)
      have hunmatched : ¬ w.2.matched = true := fun hmatched =>
        hrow (List.mem_map_of_mem (List.mem_filter.2 ⟨hw, hmatched⟩))
      have hnote := hled w hw
      rw [ledNotes, if_neg hunmatched] at hnote
      exact hnote.eq_nil
    · exact hothers row hin
  case submissions => rw [submissions_append, hsubmissions, hsubmissions', List.append_nil]

theorem leadAndSubmit_booked {rows : List Row} {t : List Event} {writes : List (Row × Resolution)}
    (hrows : (rows.map Row.index).Nodup) (h : (e.leadAndSubmit b rows).Logs e t writes) :
    e.Booked b rows t writes := by
  unfold leadAndSubmit at h
  split at h
  · obtain ⟨t₁, results, t₂, rfl, hlead, hrest⟩ := Plan.Logs.bind h
    obtain ⟨t₃, ⟨⟩, t₄, rfl, hkeep, hlater⟩ := Plan.Logs.bind hrest
    obtain ⟨t₅, writes, t₆, rfl, hsubmit, rfl, rfl⟩ := Plan.Logs.bind
      (p := e.submitRows b (priorsOf results) (without rows (results.filter (·.2.matched)))) hlater
    rw [List.append_nil, ← List.append_assoc]
    refine (opening_of_leading hrows.of_map hlead hkeep).booked hrows (submitRows_booked ?_ hsubmit)
    exact hrows.sublist (List.filter_sublist.map _)
  · exact submitRows_booked hrows h

/-- All rows are looked up, and nothing stops the run from using the hits. -/
theorem opening_of_probes {rows : List Row} {t : List Event} {probes : List (Row × Outcome)}
    (hrows : rows.Nodup)
    (h : Pool.Logs e { crew := .itself, pending := rows.map fun row => ⟨row, .lookup⟩ } t probes) :
    probes.all (·.2.isOk) = true ∧ e.Opening rows t (hitsIn probes) := by
  have hjobs := map_row_jobs rows .lookup
  have htold := h.told (hjobs.symm ▸ hrows)
  have hprobe : ∀ w ∈ probes, ∃ found, w.2 = .ok found ∧ (notes w.1 t).Perm (foundNotes .lookup found) := by
    intro w hw
    obtain ⟨j, hj, -, ns, hns, hj'⟩ := htold.told w hw
    obtain ⟨row, -, rfl⟩ := List.mem_map.1 hj
    obtain ⟨found, houtcome, rfl⟩ := hj'
    exact ⟨found, houtcome, hns⟩
  have hok : probes.all (·.2.isOk) = true := by
    apply List.all_eq_true.2
    intro w hw
    obtain ⟨found, houtcome, -⟩ := hprobe w hw
    rw [houtcome]
    rfl
  -- No lookup was given up, so all hits count.
  have hhits : hitsIn probes = resolved probes := by
    unfold hitsIn
    rw [List.takeWhile_eq_self_iff.2 (List.all_eq_true.1 hok)]
  have honce := htold.rows
  have hothers := htold.others
  rw [hjobs] at honce hothers
  have hsublist := map_fst_resolved_sublist probes
  rw [hhits]
  refine ⟨hok, (honce.nodup_iff.2 hrows).sublist hsublist, fun row hrow => honce.subset (hsublist.subset hrow),
    ?_, ?_, htold.submissions⟩
  · intro w hw
    obtain ⟨found, houtcome, hns⟩ := hprobe _ (mem_resolved.1 hw)
    cases houtcome
    exact ⟨_, List.mem_cons_self, hns⟩
  · intro row hrow
    by_cases hin : row ∈ rows
    · obtain ⟨⟨row, outcome⟩, hw, rfl⟩ := List.mem_map.1 (honce.mem_iff.2 hin)
      obtain ⟨found, rfl, hns⟩ := hprobe _ hw
      cases found with
      | none => exact hns.eq_nil
      | some r => exact absurd (List.mem_map_of_mem (mem_resolved.2 hw)) hrow
    · exact hothers row hin

/-- A run by way of a bulk provider is in order. -/
theorem bulkBy_booked {rows : List Row} {t : List Event} {writes : List (Row × Resolution)}
    (hrows : (rows.map Row.index).Nodup) (h : (e.bulkBy b rows).Logs e t writes) :
    e.Booked b rows t writes := by
  obtain ⟨t₁, t₂, probes, rfl, hpool, hrest⟩ := h
  obtain ⟨hok, hopening⟩ := opening_of_probes hrows.of_map hpool
  change Plan.Logs e (if !probes.all (·.2.isOk) then _ else _) _ _ at hrest
  rw [if_neg (by simp [hok])] at hrest
  obtain ⟨t₃, writes, t₄, rfl, hlead, rfl, rfl⟩ := Plan.Logs.bind hrest
  rw [List.append_nil]
  exact hopening.booked hrows (leadAndSubmit_booked (hrows.sublist (List.filter_sublist.map _)) hlead)

/-- The books of a bulk run over rows are in order: nothing is lost, and nothing is counted twice. -/
structure Balanced (e : Engine) (k : Setting σ) (b : BulkProvider) (rows : List Row) (s : σ) (t : List Event)
    (slots : List Resolution) (s' : σ) : Prop where
  /-- The rows that are submitted, one submission after the other, are those that were neither hits nor matched
  by a leading provider, tagged with their positions. -/
  submitted : (submissions t).flatten = (late rows t).map Engine.submitted
  tags : (submissions t).flatten.map Address.id = (late rows t).map fun row => row.index.repr
  increasing : ((late rows t).map Row.index).Pairwise (· < ·)
  sizes : ∀ chunk ∈ submissions t, chunk ≠ [] ∧ chunk.length ≤ max 1 (min e.chunkSize b.limit)
  /-- No submission is too large for the Census geocoder. -/
  accepted : ∀ client bulk, e.providers[b.position]? = some (Backend.census client bulk).toProvider →
    ∀ chunk ∈ submissions t, ∀ {τ : Type} (w : World services τ) (x : τ) (n : Nat),
      (((Backend.census client bulk).submit chunk).run w x).1 ≠ some (.error (Census.oversized n))
  /-- Every row is written once, to its slot, with the resolution that it came to by one route: by an early one
  if it was not submitted, and by a late one if it was. -/
  written : ∃ writes, (e.bulkBy b rows).Executes e k s t writes s' ∧ slots = fill rows.length writes ∧
    (writes.map Prod.fst).Perm rows ∧
    ∀ w ∈ writes, slots[w.1.index]? = some w.2 ∧
      ∃ route ∈ if w.1 ∈ late rows t then e.lateRoutes w else e.earlyRoutes w, (notes w.1 t).Perm route

theorem Booked.route {rows : List Row} {t : List Event} {writes : List (Row × Resolution)}
    (h : e.Booked b rows t writes) {w : Row × Resolution} (hw : w ∈ writes) :
    ∃ route ∈ if w.1 ∈ late rows t then e.lateRoutes w else e.earlyRoutes w, (notes w.1 t).Perm route := by
  obtain ⟨route, hroute, hperm⟩ := h.fared.routes w hw
  have hrow : w.1 ∈ rows := h.fared.once.subset (List.mem_map_of_mem hw)
  refine ⟨route, ?_, hperm⟩
  rcases List.mem_append.1 hroute with hearly | hlate
  · rw [if_neg (by simp [late, hperm.any_eq, early_of_route hearly])]
    exact hearly
  · rw [if_pos (by simp [late, hperm.any_eq, late_of_route hlate, hrow])]
    exact hlate

theorem chunk_length_le {chunk rows : List Row} (h : chunk ∈ chunksOf (e.submissionSize b - 1) rows) :
    chunk ≠ [] ∧ chunk.length ≤ max 1 (min e.chunkSize b.limit) := by
  obtain ⟨hne, hlength⟩ := of_mem_chunksOf h
  have hpos : 1 ≤ e.submissionSize b := Nat.le_max_left _ _
  rw [Nat.sub_add_cancel hpos] at hlength
  exact ⟨hne, hlength⟩

/-- Whatever its collaborators answer, a bulk run that nothing disturbs can be brought to its end, and then its
books are in order. -/
theorem bulk_balances {e : Engine} {k : Setting σ} {b : BulkProvider} (hk : Undisturbed k)
    (hb : e.bulkProvider? = some b) (addresses : List Address) (s : σ) :
    (∀ t c s', Config.Steps e k (.ready (e.bulk addresses)) s t c s' →
      ∃ t' slots s'', Config.Steps e k c s' t' (.ready (.done slots)) s'') ∧
    ∀ t slots s', (e.bulk addresses).Executes e k s t slots s' →
      e.Balanced k b (rowsOf (Address.assignIds addresses)) s t slots s' := by
  refine ⟨(hk.ensures _ s).1, ?_⟩
  intro t slots s' run
  have hindex := nodup_index_rowsOf (Address.assignIds addresses)
  unfold bulk at run
  rw [hb] at run
  obtain ⟨writes, hwrites, rfl⟩ := Plan.Executes.of_bind_done run
  have hbooked := bulkBy_booked hindex (hwrites.logs hk)
  have hflatten : (submissions t).flatten = (late (rowsOf (Address.assignIds addresses)) t).map submitted := by
    rw [hbooked.submissions, ← List.map_flatten, flatten_chunksOf]
  -- The submissions are chunks of the late rows, and the size of chunks is bounded.
  have hsizes : ∀ chunk ∈ submissions t, chunk ≠ [] ∧ chunk.length ≤ max 1 (min e.chunkSize b.limit) := by
    intro chunk hchunk
    rw [hbooked.submissions, List.mem_map] at hchunk
    obtain ⟨rows, hrows, rfl⟩ := hchunk
    obtain ⟨hne, hlength⟩ := chunk_length_le hrows
    exact ⟨by simpa using hne, by simpa using hlength⟩
  constructor
  case submitted => exact hflatten
  case tags =>
    rw [hflatten, List.map_map]
    rfl
  case increasing =>
    refine List.Pairwise.sublist (List.filter_sublist.map Row.index) ?_
    rw [map_index_rowsOf]
    exact List.pairwise_lt_range
  case sizes => exact hsizes
  case accepted =>
    intro client bulk hp chunk hchunk τ w x n
    obtain ⟨p, hp', -, -, hlimit⟩ := provider_of_bulkProvider? hb
    obtain rfl : p = (Backend.census client bulk).toProvider := Option.some.inj (hp'.symm.trans hp)
    -- The limit of the bulk provider is the one that its backend declares.
    have hmax : b.limit = Census.maxRows := by
      cases bulk with
      | true => exact (Option.some.inj hlimit).symm
      | false => cases hlimit
    have hlength := (hsizes chunk hchunk).2
    refine Backend.submit_ne_oversized client bulk (hlength.trans ?_) w x n
    rw [hmax]
    exact max_le (by decide) (min_le_right _ _)
  case written =>
    exact ⟨writes, hwrites, rfl, hbooked.fared.once, fun w hw =>
      ⟨fill_getElem?_of_perm hbooked.fared.once hw, hbooked.route hw⟩⟩

/-- A run over two addresses, in submissions of one row, comes to its end with its books in order. -/
theorem bulk_balances_two : Undisturbed (InMemory.setting Sample.answer false) ∧
    Sample.engine.bulkProvider? = some ⟨1, "census", 1⟩ ∧
    ∃ t slots s', (Sample.engine.bulk [Sample.home, Sample.office]).Executes Sample.engine
        (InMemory.setting Sample.answer false) {} t slots s' ∧
      Sample.engine.Balanced (InMemory.setting Sample.answer false) ⟨1, "census", 1⟩
        (rowsOf (Address.assignIds [Sample.home, Sample.office])) {} t slots s' := by
  have hk := InMemory.undisturbed Sample.answer_ne_cancelled
  obtain ⟨hcompletes, hbalances⟩ := bulk_balances (e := Sample.engine) (b := ⟨1, "census", 1⟩) hk rfl
    [Sample.home, Sample.office] {}
  obtain ⟨t, slots, s', run⟩ := hcompletes [] _ _ .refl
  exact ⟨hk, rfl, t, slots, s', run, hbalances t slots s' run⟩

end Geocoding.Engine
