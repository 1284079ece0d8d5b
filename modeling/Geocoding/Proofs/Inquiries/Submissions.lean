import Geocoding.Proofs.Inquiries.Passes

/-!
# What becomes of rows that are submitted

Every row is submitted once, with others or alone, and the reply matches it, declines it, or does not answer it.
What is matched is kept at once; all the rest is left to jobs.
-/

namespace Geocoding.Engine

variable {e : Engine} {b : BulkProvider} {row : Row} {t t' : List Event}

/-- What a submission settles for a row, whatever the reply. -/
def settle (b : BulkProvider) (priors : List (Nat × String)) (reply : Except Error Answers) (row : Row) :
    (Row × Resolution) ⊕ Job :=
  match reply with
  | .ok answers => settleRow b priors answers row
  | .error _ => .inr (unanswered b priors row)

/-- A submission matches a row, or declines it, or does not answer. -/
theorem settle_cases (b : BulkProvider) (priors : List (Nat × String)) (reply : Except Error Answers) (row : Row) :
    (∃ answers r, reply = .ok answers ∧ answers.get? row.index.repr = some r ∧ r.matched = true ∧
      settle b priors reply row = .inl (row, r)) ∨
    (∃ answers r, reply = .ok answers ∧ answers.get? row.index.repr = some r ∧ r.matched = false ∧
      settle b priors reply row = .inr ⟨row, .resolve (b.position + 1) (some b.name)⟩) ∨
    (∀ answers, reply = .ok answers → answers.get? row.index.repr = none) ∧
      settle b priors reply row = .inr (unanswered b priors row) := by
  cases reply with
  | error error => exact .inr (.inr ⟨by simp, rfl⟩)
  | ok answers =>
    simp only [settle, settleRow]
    cases hget : answers.get? row.index.repr with
    | none => exact .inr (.inr ⟨by simpa using hget, rfl⟩)
    | some r =>
      cases hmatched : r.matched with
      | true => exact .inl ⟨answers, r, rfl, hget, hmatched, by simp [hmatched]⟩
      | false => exact .inr (.inl ⟨answers, r, rfl, hget, hmatched, by simp [hmatched]⟩)

/-- What is left of the story of a row that was submitted, and what was settled for it. -/
def Landed (b : BulkProvider) (priors : List (Nat × String)) (row : Row) (t : List Event) (settled : Settled) :
    Prop :=
  ∃ chunk reply t', t = submissionLog b.position chunk reply ++ t' ∧ (∀ event ∈ t', event.Aside) ∧
    match settle b priors reply row with
    | .inl w => w ∈ settled.results
    | .inr j => j ∈ settled.leftovers

/-- All rows have been submitted, each once, and no others. -/
structure Landings (b : BulkProvider) (priors : List (Nat × String)) (rows : List Row) (t : List Event)
    (settled : Settled) : Prop where
  once : (settled.results.map Prod.fst ++ settled.leftovers.map Job.row).Perm rows
  each : ∀ row ∈ rows, Landed b priors row (story row t) settled
  others : ∀ row, row.index ∉ rows.map Row.index → story row t = []
  covers : Covers rows t

theorem Landed.mono {priors : List (Nat × String)} {settled settled' : Settled} (h : Landed b priors row t settled)
    (hresults : settled.results ⊆ settled'.results) (hleftovers : settled.leftovers ⊆ settled'.leftovers) :
    Landed b priors row t settled' := by
  obtain ⟨chunk, reply, t', rfl, haside, hsettled⟩ := h
  refine ⟨chunk, reply, t', rfl, haside, ?_⟩
  cases hsettle : settle b priors reply row with
  | inl w =>
    rw [hsettle] at hsettled
    exact hresults hsettled
  | inr j =>
    rw [hsettle] at hsettled
    exact hleftovers hsettled

theorem Landings.append {priors : List (Nat × String)} {rows rows' : List Row} {settled settled' : Settled}
    (h : Landings b priors rows t settled) (h' : Landings b priors rows' t' settled')
    (hrows : ((rows ++ rows').map Row.index).Nodup) :
    Landings b priors (rows ++ rows') (t ++ t')
      ⟨settled.results ++ settled'.results, settled.leftovers ++ settled'.leftovers⟩ where
  once := by
    refine List.Perm.trans (List.perm_iff_count.2 ?_) (h.once.append h'.once)
    intro row
    simp only [List.map_append, List.count_append]
    omega
  each row hrow := by
    rw [List.map_append] at hrows
    -- No row is in both parts, so the story of each is told by one of them alone.
    have hapart := List.disjoint_of_nodup_append hrows
    rw [story_append]
    rcases List.mem_append.1 hrow with hrow | hrow
    · rw [h'.others row (hapart (List.mem_map_of_mem hrow)), List.append_nil]
      exact (h.each row hrow).mono (by simp) (by simp)
    · rw [h.others row fun hin => hapart hin (List.mem_map_of_mem hrow), List.nil_append]
      exact (h'.each row hrow).mono (by simp) (by simp)
  others row hrow := by
    rw [List.map_append, List.mem_append, not_or] at hrow
    simp [h.others row hrow.1, h'.others row hrow.2]
  covers := (h.covers.mono (by simp)).append (h'.covers.mono (by simp))

theorem story_submissionLog (row : Row) (position : Nat) (chunk : List Row) (reply : Except Error Answers) :
    story row (submissionLog position chunk reply) =
      if row.index ∈ chunk.map Row.index then submissionLog position chunk reply else [] := by
  have hconcerns : (chunk.map submitted).any (·.id == row.index.repr) = decide (row.index ∈ chunk.map Row.index) := by
    rw [any_submitted, Bool.eq_iff_iff]
    simp
  unfold submissionLog story
  by_cases hrow : row.index ∈ chunk.map Row.index <;>
    simp [Event.concerns, Event.owner, Event.call?, hconcerns, hrow]

theorem perm_settle (b : BulkProvider) (priors : List (Nat × String)) (reply : Except Error Answers)
    (chunk : List Row) :
    ((resultsIn (chunk.map (settle b priors reply))).map Prod.fst ++
      (jobsIn (chunk.map (settle b priors reply))).map Job.row).Perm chunk := by
  cases reply with
  | ok answers => exact perm_settled b priors answers chunk
  | error error =>
    simp [settle, resultsIn, jobsIn, unanswered, List.filterMap_map, Function.comp_def]

/-- A chunk has been submitted, and nothing else was done than to keep what was matched. -/
theorem landings_of_reply {priors : List (Nat × String)} {chunk : List Row} (reply : Except Error Answers)
    (haside : ∀ row, (∀ event ∈ story row t, event.Aside) ∧
      (row ∉ (resultsIn (chunk.map (settle b priors reply))).map Prod.fst → story row t = []))
    (hcovers : Covers ((resultsIn (chunk.map (settle b priors reply))).map Prod.fst) t) :
    Landings b priors chunk (submissionLog b.position chunk reply ++ t)
      ⟨resultsIn (chunk.map (settle b priors reply)), jobsIn (chunk.map (settle b priors reply))⟩ where
  once := perm_settle b priors reply chunk
  each row hrow := by
    rw [story_append, story_submissionLog, if_pos (List.mem_map_of_mem hrow)]
    refine ⟨chunk, reply, story row t, rfl, (haside row).1, ?_⟩
    split
    next w hw => exact mem_resultsIn.2 (hw ▸ List.mem_map_of_mem hrow)
    next j hj => exact mem_jobsIn.2 (hj ▸ List.mem_map_of_mem hrow)
  others row hrow := by
    have hnone : row ∉ (resultsIn (chunk.map (settle b priors reply))).map Prod.fst := fun hin =>
      hrow (List.mem_map_of_mem ((perm_settle b priors reply chunk).subset (List.mem_append_left _ hin)))
    rw [story_append, story_submissionLog, if_neg hrow, (haside row).2 hnone, List.nil_append]
  covers := by
    refine Covers.append ?_ (hcovers.mono fun row hrow => ?_)
    · simp [Covers, submissionLog, Event.call?]
    · exact (perm_settle b priors reply chunk).subset (List.mem_append_left _ hrow)

/-- All chunks are submitted. -/
theorem submitAll_lands {priors : List (Nat × String)} {chunks : List (List Row)} {settled : Settled}
    {completed : Bool} (hrows : (chunks.flatten.map Row.index).Nodup) (hcancels : ∀ event ∈ t, event.cancels = false)
    (h : (submitAll b priors chunks).Shows e t (settled, completed)) :
    completed = true ∧ Landings b priors chunks.flatten t settled := by
  induction chunks generalizing t settled completed with
  | nil =>
    obtain ⟨rfl, ⟨⟩⟩ := h
    exact ⟨rfl, ⟨.refl _, by simp, by simp, by simp [Covers]⟩⟩
  | cons chunk chunks ih =>
    rw [List.flatten_cons] at hrows ⊢
    have hrest : (chunks.flatten.map Row.index).Nodup := by
      rw [List.map_append] at hrows
      exact hrows.of_append_right
    have hchunk : chunk.Nodup := by
      rw [List.map_append] at hrows
      exact hrows.of_append_left.of_map
    -- First the chunk is submitted, then it is settled by its reply, and then come the other chunks.
    obtain ⟨t₁, reply, t₂, rfl, hcall, hlater⟩ := Plan.Shows.bind
      (p := Plan.ofTask (Program.guarded collaborators (.submit b.position (chunk.map submitted)))) h
    obtain ⟨reply, rfl, ⟨⟩⟩ | ⟨-, ⟨⟩⟩ := hcall.ofTask.guarded
    simp only [List.mem_append, or_imp, forall_and] at hcancels
    cases reply with
    | error error =>
      have hclear : error.isCancelled = false := by
        have hanswered := hcancels.1
          (.answered none (.submit b.position (chunk.map submitted)) (.error error)) (by simp)
        cases error <;> first | rfl | cases hanswered
      simp only [hclear] at hlater
      obtain ⟨t₃, ⟨settled', completed'⟩, t₄, rfl, hlast, rfl, ⟨⟩⟩ := Plan.Shows.bind hlater
      rw [List.append_nil] at hcancels ⊢
      obtain ⟨hcompleted, hlandings⟩ := ih hrest hcancels.2 hlast
      refine ⟨hcompleted, ?_⟩
      -- A refused chunk settles nothing: every row of it is left to a job.
      have hresults : resultsIn (chunk.map (settle b priors (.error error))) = [] := by simp [settle, resultsIn]
      have hleftovers : jobsIn (chunk.map (settle b priors (.error error))) = chunk.map (unanswered b priors) := by
        simp [settle, jobsIn, List.filterMap_map, Function.comp_def]
      have hrefused : Landings b priors chunk (submissionLog b.position chunk (.error error) ++ []) _ :=
        landings_of_reply (.error error) (by simp) (by simp [Covers])
      rw [hresults, hleftovers, List.append_nil] at hrefused
      exact hrefused.append hlandings hrows
    | ok answers =>
      obtain ⟨t₃, ⟨⟩, t₄, rfl, hkeep, hrest'⟩ := Plan.Shows.bind hlater
      obtain ⟨t₅, ⟨settled', completed'⟩, t₆, rfl, hlast, rfl, ⟨⟩⟩ := Plan.Shows.bind hrest'
      simp only [List.mem_append, or_imp, forall_and] at hcancels
      obtain ⟨hcompleted, hlandings⟩ := ih hrest hcancels.2.2.1 hlast
      refine ⟨hcompleted, ?_⟩
      have hmatched : ((resultsIn (chunk.map (settle b priors (.ok answers)))).map Prod.fst).Nodup :=
        ((perm_settle b priors (.ok answers) chunk).nodup_iff.2 hchunk).of_append_left
      obtain ⟨haside, hcovers⟩ := keepAll_aside hmatched hkeep
      have hanswered := landings_of_reply (.ok answers) haside hcovers
      rw [List.append_nil, ← List.append_assoc]
      exact hanswered.append hlandings hrows

end Geocoding.Engine
