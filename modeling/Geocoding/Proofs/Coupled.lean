import Geocoding.Proofs.Interleaving.Coupling

/-!
# Batches and bulk runs side by side

What a batch or a bulk run does with its rows, between one step and the next, does not look into them: it goes by
their positions. So plans for rows and plans for their counterparts are alike at every turn, whatever comes of
their jobs and submissions, and they come to the same slots.
-/

namespace Geocoding.Engine.Coupling

variable {σ γ : Type} {e e' : Engine} {k : Setting σ} (K : Coupling e e' k)

/-! ## Rows and their counterparts -/

theorem rows_append (results later : List (Row × γ)) : K.rows (results ++ later) = K.rows results ++ K.rows later :=
  List.map_append

theorem resolved_rows (results : List (Row × Outcome)) : resolved (K.rows results) = K.rows (resolved results) := by
  induction results with
  | nil => rfl
  | cons w results ih =>
    obtain ⟨row, outcome⟩ := w
    rcases outcome with error | _ | r <;> simpa [resolved, rows] using ih

theorem takeWhile_rows (p : γ → Bool) (results : List (Row × γ)) :
    (K.rows results).takeWhile (p ·.2) = K.rows (results.takeWhile (p ·.2)) := by
  rw [rows, rows, List.takeWhile_map]
  rfl

theorem filter_rows (p : γ → Bool) (results : List (Row × γ)) :
    (K.rows results).filter (p ·.2) = K.rows (results.filter (p ·.2)) := by
  rw [rows, rows, List.filter_map]
  rfl

theorem hitsIn_rows (probes : List (Row × Outcome)) : hitsIn (K.rows probes) = K.rows (hitsIn probes) := by
  rw [hitsIn, takeWhile_rows K Except.isOk, resolved_rows]
  rfl

theorem priorsOf_rows (results : List (Row × Resolution)) : priorsOf (K.rows results) = priorsOf results := by
  rw [priorsOf, filter_rows K fun r : Resolution => !r.matched && r.source != "", rows, List.map_map]
  exact List.map_congr_left fun w _ => by simp [K.index]

theorem without_rows (rows : List Row) (results : List (Row × Resolution)) :
    without (rows.map K.row) (K.rows results) = (without rows results).map K.row := by
  rw [without, without, List.filter_map]
  congr 1
  refine List.filter_congr fun row _ => ?_
  simp [Coupling.rows, K.index, List.any_map, Function.comp_def]

theorem fill_rows (size : Nat) (results : List (Row × Resolution)) :
    fill size (K.rows results) = fill size results := by
  rw [fill, fill, rows, List.foldl_map]
  simp only [K.index]

theorem chunksOf_map {β : Type} (f : γ → β) (n : Nat) (l : List γ) :
    chunksOf n (l.map f) = (chunksOf n l).map (·.map f) := by
  induction l using chunksOf.induct n with
  | case1 => simp [chunksOf]
  | case2 a rest ih =>
    rw [List.map_cons, chunksOf, chunksOf, List.map_cons, ← List.map_drop, ih, ← List.map_take]
    rfl

theorem unanswered_row (b : BulkProvider) (priors : List (Nat × String)) (row : Row) :
    unanswered b priors (K.row row) = K.job (unanswered b priors row) := by
  rw [unanswered, K.index]
  rfl

theorem settleRow_row (b : BulkProvider) (priors : List (Nat × String)) (answers : Answers) (row : Row) :
    settleRow b priors answers (K.row row) =
      (settleRow b priors answers row).map (fun w => (K.row w.1, w.2)) K.job := by
  rw [settleRow, settleRow, K.index, unanswered_row]
  cases answers.get? row.index.repr with
  | none => rfl
  | some r => cases hmatched : r.matched <;> simp [hmatched, job, Job.onRow]

theorem resultsIn_rows (settled : List ((Row × Resolution) ⊕ Job)) :
    resultsIn (settled.map (Sum.map (fun w => (K.row w.1, w.2)) K.job)) = K.rows (resultsIn settled) := by
  rw [resultsIn, resultsIn, rows, List.filterMap_map, List.map_filterMap]
  exact List.filterMap_congr fun item _ => by cases item <;> rfl

theorem jobsIn_rows (settled : List ((Row × Resolution) ⊕ Job)) :
    jobsIn (settled.map (Sum.map (fun w => (K.row w.1, w.2)) K.job)) = (jobsIn settled).map K.job := by
  rw [jobsIn, jobsIn, List.filterMap_map, List.map_filterMap]
  exact List.filterMap_congr fun item _ => by cases item <;> rfl

/-! ## Plans -/

theorem finish (jobs : List Job) : K.Plans K.rows (Plan.finish jobs) (Plan.finish (jobs.map K.job)) :=
  .pool fun results => K.resolved_rows results ▸ .done (resolved results)

theorem each (jobs : List Job) : K.Plans K.rows (Plan.each jobs) (Plan.each (jobs.map K.job)) :=
  .pool fun results => .done results

theorem fired_plan : K.Plans id Plan.fired Plan.fired :=
  .look fun fired => .done fired

/-- The jobs of one stage. -/
theorem jobs_row (stage : Stage) (rows : List Row) :
    (rows.map K.row).map (fun row => (⟨row, stage⟩ : Job)) =
      (rows.map fun row => (⟨row, stage⟩ : Job)).map K.job := by
  simp [job, Job.onRow]

/-- Jobs about results have their counterparts, if each has. -/
theorem jobs_rows {f : Row × γ → Job} (h : ∀ w, f (K.row w.1, w.2) = K.job (f w)) (results : List (Row × γ)) :
    (K.rows results).map f = (results.map f).map K.job := by
  simp [rows, h]

theorem keepAll (results : List (Row × Resolution)) :
    K.Plans id (Engine.keepAll results) (Engine.keepAll (K.rows results)) := by
  unfold Engine.keepAll
  rw [K.jobs_rows fun _ => rfl]
  exact (K.each _).bind fun _ => .done ()

theorem submission (position : Nat) (rows : List Address) :
    K.Plans id (.ofTask (Program.guarded collaborators (.submit position rows)))
      (.ofTask (Program.guarded collaborators (.submit position rows))) :=
  .look fun fired => match fired with
    | true => .done _
    | false => .call (K.submit position rows) fun reply => .done reply

/-- What has been settled, about the counterparts. -/
def settled (d : Settled) : Settled :=
  ⟨K.rows d.results, d.leftovers.map K.job⟩

/-- What comes first and what comes after it are put together alike. -/
theorem settled_append (results : List (Row × Resolution)) (leftovers : List Job) (rest : Settled × Bool) :
    K.Plans (Prod.map K.settled id)
      (.done (⟨results ++ rest.1.results, leftovers ++ rest.1.leftovers⟩, rest.2))
      (.done (⟨K.rows results ++ (K.settled rest.1).results, leftovers.map K.job ++ (K.settled rest.1).leftovers⟩,
        rest.2)) := by
  have heq : Prod.map K.settled id (⟨results ++ rest.1.results, leftovers ++ rest.1.leftovers⟩, rest.2) =
      (⟨K.rows results ++ (K.settled rest.1).results, leftovers.map K.job ++ (K.settled rest.1).leftovers⟩,
        rest.2) := by
    simp [settled, rows]
  exact heq ▸ .done _

theorem submitAll (b : BulkProvider) (priors : List (Nat × String)) (chunks : List (List Row)) :
    K.Plans (Prod.map K.settled id) (Engine.submitAll b priors chunks)
      (Engine.submitAll b priors (chunks.map (·.map K.row))) := by
  induction chunks with
  | nil => exact .done (({}, true) : Settled × Bool)
  | cons chunk chunks ih =>
    have hrows : (chunk.map K.row).map Engine.submitted = chunk.map Engine.submitted := by
      simp [K.submitted]
    rw [List.map_cons, Engine.submitAll, Engine.submitAll, hrows]
    -- Both runs see the token alike and get the same reply, so they are called off, refused or answered together.
    refine K.fired_plan.bind fun fired => ?_
    cases fired with
    | true => exact .done (({}, false) : Settled × Bool)
    | false =>
      refine (K.submission _ _).bind fun reply => ?_
      cases reply with
      | error error =>
        have hunanswered :
            (chunk.map K.row).map (unanswered b priors) = (chunk.map (unanswered b priors)).map K.job := by
          simp [unanswered_row]
        simp only [id_eq]
        split
        · exact .done (({}, false) : Settled × Bool)
        · refine ih.bind fun rest => ?_
          rw [hunanswered]
          exact K.settled_append [] _ rest
      | ok answers =>
        have hsettled : (chunk.map K.row).map (settleRow b priors answers) =
            (chunk.map (settleRow b priors answers)).map (Sum.map (fun w => (K.row w.1, w.2)) K.job) := by
          simp [settleRow_row]
        simp only [id_eq, hsettled, resultsIn_rows, jobsIn_rows]
        refine (K.keepAll _).bind fun _ => ih.bind fun rest => ?_
        exact K.settled_append _ _ rest

theorem submitRows (b : BulkProvider) (priors : List (Nat × String)) (rows : List Row) :
    K.Plans K.rows (e.submitRows b priors rows) (e'.submitRows b priors (rows.map K.row)) := by
  have hsize : e'.submissionSize b = e.submissionSize b := by rw [submissionSize, submissionSize, K.chunkSize]
  unfold Engine.submitRows
  rw [hsize, chunksOf_map]
  refine (K.submitAll b priors _).bind fun (settled, completed) => ?_
  cases completed with
  | false => exact .done settled.results
  | true =>
    refine (K.finish settled.leftovers).bind fun results => ?_
    exact K.rows_append settled.results results ▸ .done _

theorem leadAndSubmit (b : BulkProvider) (rows : List Row) :
    K.Plans K.rows (e.leadAndSubmit b rows) (e'.leadAndSubmit b (rows.map K.row)) := by
  unfold Engine.leadAndSubmit
  rw [K.providers, K.jobs_row]
  split
  · refine (K.finish _).bind fun results => ?_
    rw [filter_rows K fun r : Resolution => r.matched]
    refine (K.keepAll _).bind fun _ => K.fired_plan.bind fun fired => ?_
    cases fired with
    | true => exact .done _
    | false =>
      rw [priorsOf_rows, without_rows]
      refine (K.submitRows b _ _).bind fun later => ?_
      exact K.rows_append _ later ▸ .done _
  · exact K.submitRows b [] rows

theorem bulkBy (b : BulkProvider) (rows : List Row) :
    K.Plans K.rows (e.bulkBy b rows) (e'.bulkBy b (rows.map K.row)) := by
  unfold Engine.bulkBy
  rw [K.jobs_row]
  refine (K.each _).bind fun probes => ?_
  have hall : (K.rows probes).all (·.2.isOk) = probes.all (·.2.isOk) := by
    rw [Coupling.rows, List.all_map]
    rfl
  simp only [hall, hitsIn_rows, without_rows]
  split
  · exact .done _
  · refine (K.leadAndSubmit b _).bind fun later => ?_
    exact K.rows_append _ later ▸ .done _

section Addresses

variable {addresses addresses' : List Address}
  (hrows : rowsOf (Address.assignIds addresses') = (rowsOf (Address.assignIds addresses)).map K.row)

include hrows

/-- Batches of addresses whose rows are counterparts are alike. -/
theorem batch : K.Plans id (e.batch addresses) (e'.batch addresses') := by
  unfold Engine.batch
  simp only [hrows, K.jobs_row, List.length_map]
  refine (K.finish _).bind fun results => ?_
  rw [K.fill_rows]
  exact .done (fill _ results)

/-- Bulk runs for addresses whose rows are counterparts are alike. -/
theorem bulk : K.Plans id (e.bulk addresses) (e'.bulk addresses') := by
  have hprovider : e'.bulkProvider? = e.bulkProvider? := by rw [bulkProvider?, bulkProvider?, K.providers]
  unfold Engine.bulk
  rw [hprovider]
  split
  · exact K.batch hrows
  · simp only [hrows, List.length_map]
    refine (K.bulkBy _ _).bind fun results => ?_
    rw [K.fill_rows]
    exact .done (fill _ results)

end Addresses

end Geocoding.Engine.Coupling
