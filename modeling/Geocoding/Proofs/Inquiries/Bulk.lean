import Geocoding.Proofs.Inquiries.Submissions

/-!
# Whom a bulk run asks

The story of a row in a bulk run has at most four parts: it is looked up, the providers before the bulk provider
are asked about it, it is submitted, and it is taken up again. Each part goes on where the one before it has
stopped: behind the bulk provider if that has declined the row, and at the bulk provider if it has not answered.
So no provider is asked twice, and the last attempt is not forgotten on the way.
-/

namespace Geocoding.Engine

variable {α σ : Type} {e : Engine} {b : BulkProvider} {row : Row} {t t' : List Event}

/-! ## Rows that a run attends to -/

/-- A run has attended to a row: it has at most one resolution for it, all is in order, and the bulk provider has
had its place. -/
def Attended (e : Engine) (b : BulkProvider) (row : Row) (t : List Event) (results : List Resolution) : Prop :=
  ∃ slot : Option Resolution, results = slot.toList ∧ e.InOrder row t (slot.getD {}) ∧ b.Placed row t

/-- A run over rows attends to each of them, if their stories so far have come to such a front, and to no others. -/
structure Attends (e : Engine) (b : BulkProvider) (first : Nat) (prior : Row → Option String) (rows : List Row)
    (t : List Event) (writes : List (Row × Resolution)) : Prop where
  each : ∀ row ∈ rows, ∀ before, e.Front row before first (prior row) → (∀ event ∈ before, event.Asking b.leads) →
    e.Attended b row (before ++ story row t) (resultsOf row writes)
  results : ∀ w ∈ writes, w.1 ∈ rows
  others : ∀ row, row.index ∉ rows.map Row.index → story row t = []
  covers : Covers rows t

/-- A job that takes a row up again brings what is right for it. -/
theorem Front.rerun {first : Nat} {prior : Option String} {log : List Event} {o : Option Outcome}
    (h : e.Front row t first prior) (hle : first ≤ e.providers.length)
    (hs : Shows (some ⟨row, .resolve first prior⟩) (e.task ⟨row, .resolve first prior⟩) log o)
    (hcancels : ∀ event ∈ log, event.cancels = false) :
    e.InOrder row (t ++ .begun ⟨row, .resolve first prior⟩ :: log) ((brought o).getD {}) ∧
    (∀ event ∈ Event.begun ⟨row, .resolve first prior⟩ :: log, event.Asking (follows first)) := by
  obtain ⟨o', hresolve, rfl⟩ := Shows.of_map (p := e.resolve row.address first prior) hs
  obtain ⟨slot, rfl, horder⟩ := (h.begin _).resolve hle hresolve hcancels
  constructor
  · cases slot <;> simpa [brought, Except.map] using horder
  · refine List.forall_mem_cons.2 ⟨by rintro c ⟨⟩, ?_⟩
    exact hresolve.asking (only_asks_resolve fun position hfirst => ⟨hfirst, row, prior, rfl⟩)

/-- A run that settles some rows, and then goes on with the others. -/
theorem Attends.after {first first' : Nat} {prior prior' : Row → Option String} {rows : List Row}
    {ws writes : List (Row × Resolution)} (hrows : (rows.map Row.index).Nodup) (hws : ∀ w ∈ ws, w.1 ∈ rows)
    (hsettled : ∀ row ∈ ws.map Prod.fst, ∀ before, e.Front row before first (prior row) →
      (∀ event ∈ before, event.Asking b.leads) → e.Attended b row (before ++ story row t) (resultsOf row ws))
    (hopen : ∀ row ∈ rows, row ∉ ws.map Prod.fst → ∀ before, e.Front row before first (prior row) →
      e.Front row (before ++ story row t) first' (prior' row) ∧ ∀ event ∈ story row t, event.Asking b.leads)
    (hothers : ∀ row ∉ rows, story row t = []) (hcovers : Covers rows t)
    (hrest : e.Attends b first' prior' (without rows ws) t' writes) :
    e.Attends b first prior rows (t ++ t') (ws ++ writes) where
  each row hrow before hfront hbefore := by
    rw [story_append, resultsOf_append]
    by_cases hin : row ∈ ws.map Prod.fst
    · -- A row that was settled has no part in what follows.
      obtain ⟨w, hw, rfl⟩ := List.mem_map.1 hin
      have hstory := hrest.others w.1 (not_mem_without hw)
      have hresults : resultsOf w.1 writes = [] := resultsOf_eq_nil_iff.2 fun hmem => by
        obtain ⟨w', hw', heq⟩ := List.mem_map.1 hmem
        exact not_mem_without hw (List.mem_map_of_mem (heq ▸ hrest.results w' hw'))
      simpa [hstory, hresults] using hsettled w.1 hin before hfront hbefore
    · -- Any other row goes on from where the first part has left it.
      obtain ⟨hfront', hasking⟩ := hopen row hrow hin before hfront
      rw [resultsOf_eq_nil_iff.2 hin, List.nil_append, ← List.append_assoc]
      refine hrest.each row ((mem_without_iff hrows hws).2 ⟨hrow, hin⟩) _ hfront' fun event hevent => ?_
      exact (List.mem_append.1 hevent).elim (hbefore event) (hasking event)
  results w hw := (List.mem_append.1 hw).elim (hws w) fun hw => List.filter_sublist.subset (hrest.results w hw)
  others row hrow := by
    have hrest' := hrest.others row fun hin => hrow ((List.filter_sublist.map _).subset hin)
    simp [hothers row fun hin => hrow (List.mem_map_of_mem hin), hrest']
  covers := hcovers.append (hrest.covers.mono List.filter_sublist.subset)

/-! ## Rows that were submitted -/

section Submitted

variable {before aside log : List Event} {chunk : List Row} {reply : Except Error Answers} {answers : Answers}
  {r : Resolution} {first : Nat} {prior : Option String} {o : Option Outcome}

theorem Front.submit (h : e.Front row before first prior) (position : Nat) (chunk : List Row) :
    e.Front row (before ++ [.started none (.submit position (chunk.map submitted))]) first prior :=
  h.append (List.forall_mem_singleton.2 ⟨rfl, rfl, rfl⟩)

/-- A row that a submission matches is in order. -/
theorem Front.matched (h : e.Front row before first prior) (hmatched : r.matched = true)
    (haside : ∀ event ∈ aside, event.Aside) (position : Nat) (chunk : List Row) (answers : Answers) :
    e.InOrder row (before ++ (submissionLog position chunk (.ok answers) ++ aside)) r := by
  have hrest : ∀ event ∈ Event.answered none (.submit position (chunk.map submitted)) (.ok answers) :: aside,
      event.asks = false :=
    List.forall_mem_cons.2 ⟨rfl, fun event hevent => (haside event hevent).not_asks⟩
  have horderly := (h.submit position chunk).toOrderly.append hrest
  exact Orderly.inOrder_of_matched (by simpa [submissionLog] using horderly) hmatched

/-- Behind a submission that declines a row, its provider is the one that was asked last. -/
theorem Front.declined (hb : e.bulkProvider? = some b) (h : e.Front row before b.position prior)
    (hget : answers.get? row.index.repr = some r) (hunmatched : r.matched = false) (chunk : List Row) :
    e.Front row (before ++ submissionLog b.position chunk (.ok answers)) (b.position + 1) (some b.name) := by
  obtain ⟨p, hp, -, hname, -⟩ := provider_of_bulkProvider? hb
  have hanswered := (h.submit b.position chunk).concat (Nat.le_succ _)
    (.answered none (.submit b.position (chunk.map submitted)) (.ok answers)) (some b.name) (by rintro _ ⟨⟩)
    (by rintro _ _ _ ⟨⟩) (by simp [Event.settles, hget, hunmatched])
    (by simp [attempt?, hget, hunmatched, names_getElem? hp, hname]) (by
      intro position hle hlt
      obtain rfl : position = b.position := by omega
      exact .inr ⟨none, chunk.map submitted, answers, List.mem_singleton_self _, by simp [hget, hunmatched]⟩)
  simpa [submissionLog] using hanswered

/-- A submission that does not answer a row leaves it where it was. -/
theorem Front.unanswered (h : e.Front row before first prior)
    (hnone : ∀ answers, reply = .ok answers → answers.get? row.index.repr = none) (position : Nat)
    (chunk : List Row) : e.Front row (before ++ submissionLog position chunk reply) first prior := by
  refine h.append (List.forall_mem_cons.2 ⟨⟨rfl, rfl, rfl⟩, List.forall_mem_singleton.2 ?_⟩)
  cases reply with
  | error error => exact ⟨rfl, rfl, rfl⟩
  | ok answers => exact ⟨rfl, by simp [Event.settles, hnone answers rfl], by simp [attempt?, hnone answers rfl]⟩

/-- A row that is taken up again behind its submission. -/
theorem attended_of_rerun (hb : e.bulkProvider? = some b) (hfirst : b.position ≤ first)
    (hle : first ≤ e.providers.length) (hbefore : ∀ event ∈ before, event.Asking b.leads)
    (haside : ∀ event ∈ aside, event.Aside)
    (h : e.Front row (before ++ submissionLog b.position chunk reply) first prior)
    (hs : Shows (some ⟨row, .resolve first prior⟩) (e.task ⟨row, .resolve first prior⟩) log o)
    (hcancels : ∀ event ∈ log, event.cancels = false)
    (hdeclined : ∀ answers, reply = .ok answers → (answers.get? row.index.repr).any (!·.matched) = true →
      first = b.position + 1 ∧ prior = some b.name)
    (hunanswered : (∀ answers, reply = .ok answers → answers.get? row.index.repr = none) → first = b.position) :
    e.Attended b row (before ++ (submissionLog b.position chunk reply ++
      (aside ++ .begun ⟨row, .resolve first prior⟩ :: log))) (brought o).toList := by
  obtain ⟨p, hp, havailable, -, -⟩ := provider_of_bulkProvider? hb
  obtain ⟨horder, hasking⟩ := (h.append fun event hevent => (haside event hevent).idle).rerun hle hs hcancels
  refine ⟨brought o, rfl, by simpa using horder, placed_of_follows hfirst hbefore ?_ ?_ ?_⟩
  · intro event hevent
    exact (List.mem_append.1 hevent).elim (fun hevent => (haside event hevent).asking) (hasking event)
  · intro answers hreply hany
    obtain ⟨rfl, rfl⟩ := hdeclined answers hreply hany
    exact ⟨by omega, by simp⟩
  · intro hnone
    -- Without an answer the row starts at the bulk provider itself, which is available and so is asked.
    obtain rfl := hunanswered hnone
    obtain ⟨o', hresolve, -⟩ := Shows.of_map (p := e.resolve row.address b.position prior) hs
    refine ⟨prior, by simp, ?_⟩
    rcases asked_of_resolve hp havailable hresolve hcancels with hasked | ⟨key, hit, hknown⟩ | ⟨key, hbroken⟩
    · obtain ⟨who, a, hevent⟩ := mem_asked.1 hasked
      exact .inl (mem_asked.2 ⟨who, a, by simp [hevent]⟩)
    · exact .inr (.inl ⟨key, hit, by simp [hknown]⟩)
    · exact .inr (.inr ⟨key, by simp [hbroken]⟩)

end Submitted

theorem submitRows_attends {priors : List (Nat × String)} {rows : List Row} {writes : List (Row × Resolution)}
    (hb : e.bulkProvider? = some b) (hrows : (rows.map Row.index).Nodup) (hcancels : ∀ event ∈ t, event.cancels = false)
    (h : (e.submitRows b priors rows).Shows e t writes) :
    e.Attends b b.position (fun row => priors.lookup row.index) rows t writes := by
  have hlt := position_lt_of_bulkProvider? hb
  obtain ⟨t₁, ⟨settled, completed⟩, t₂, rfl, hsubmit, hrest⟩ := Plan.Shows.bind
    (p := submitAll b priors (chunksOf (e.submissionSize b - 1) rows)) h
  simp only [List.mem_append, or_imp, forall_and] at hcancels
  obtain ⟨rfl, hlandings⟩ := submitAll_lands (by rwa [flatten_chunksOf]) hcancels.1 hsubmit
  rw [flatten_chunksOf] at hlandings
  obtain ⟨t₃, ws, t₄, rfl, hfinish, rfl, rfl⟩ := Plan.Shows.bind (p := Plan.finish settled.leftovers) hrest
  rw [List.append_nil] at hcancels ⊢
  -- No row is both matched by its submission and left to a job, and none is so twice.
  have hnodup := hlandings.once.nodup_iff.2 hrows.of_map
  have hpassed := hfinish.finish rfl hnodup.of_append_right
  have hleft : ∀ row ∈ settled.leftovers.map Job.row, resultsOf row settled.results = [] := fun row hrow =>
    resultsOf_eq_nil_iff.2 fun hin => List.disjoint_of_nodup_append hnodup hin hrow
  constructor
  case each =>
    intro row hrow before hfront hbefore
    obtain ⟨chunk, reply, aside, hstory, haside, hsettled⟩ := hlandings.each row hrow
    rw [story_append, hstory, resultsOf_append]
    obtain ⟨answers, r, rfl, hget, hmatched, hsettle⟩ | ⟨answers, r, rfl, hget, hunmatched, hsettle⟩ |
      ⟨hnone, hsettle⟩ := settle_cases b priors reply row
    all_goals rw [hsettle] at hsettled
    case inl =>
      have hapart := List.disjoint_of_nodup_append hnodup (List.mem_map_of_mem hsettled)
      obtain ⟨hstory', hresults'⟩ := hpassed.others row hapart
      refine ⟨some r, ?_, by simpa [hstory'] using hfront.matched hmatched haside b.position chunk answers, ?_⟩
      · rw [resultsOf_eq_singleton hnodup.of_append_left hsettled, hresults']
        rfl
      · rw [hstory', List.append_nil]
        refine placed_of_follows (Nat.le_refl _) hbefore (fun event hevent => (haside event hevent).asking) ?_ ?_
        · rintro _ ⟨⟩ hany
          simp [hget, hmatched] at hany
        · intro hnone
          rw [hnone answers rfl] at hget
          cases hget
    case inr.inl =>
      obtain ⟨log, o, hstory', hshows, hresults⟩ := hpassed.each _ hsettled
      simp only at hstory' hresults
      rw [hstory', hresults, hleft row (List.mem_map_of_mem hsettled), List.append_assoc]
      refine attended_of_rerun hb (Nat.le_succ _) hlt hbefore haside (hfront.declined hb hget hunmatched chunk)
        hshows (not_cancels_of_story hcancels.2 hstory') (fun _ _ _ => ⟨rfl, rfl⟩) fun hnone => ?_
      rw [hnone answers rfl] at hget
      cases hget
    case inr.inr =>
      obtain ⟨log, o, hstory', hshows, hresults⟩ := hpassed.each _ hsettled
      simp only [unanswered] at hstory' hresults hshows
      rw [hstory', hresults, hleft row (List.mem_map_of_mem hsettled), List.append_assoc]
      refine attended_of_rerun hb (Nat.le_refl _) hlt.le hbefore haside (hfront.unanswered hnone b.position chunk)
        hshows (not_cancels_of_story hcancels.2 hstory') (fun answers hreply hany => ?_) fun _ => rfl
      simp [hnone answers hreply] at hany
  case results =>
    intro w hw
    rcases List.mem_append.1 hw with hw | hw
    · exact hlandings.once.subset (List.mem_append_left _ (List.mem_map_of_mem hw))
    · exact hlandings.once.subset (List.mem_append_right _ (hpassed.mem w hw))
  case others =>
    intro row hrow
    have hnot : row ∉ settled.leftovers.map Job.row := fun hin =>
      hrow (List.mem_map_of_mem (hlandings.once.subset (List.mem_append_right _ hin)))
    simp [hlandings.others row hrow, (hpassed.others row hnot).1]
  case covers =>
    exact hlandings.covers.append (hpassed.covers.mono fun row hrow =>
      hlandings.once.subset (List.mem_append_right _ hrow))

/-- The provider that was asked last before the submissions is known by what the leading pass came to. -/
theorem getD_lookup_priorsOf {rows : List Row} {results : List (Row × Resolution)}
    (hrows : (rows.map Row.index).Nodup) (hresults : ∀ w ∈ results, w.1 ∈ rows) (hrow : row ∈ rows)
    {found : Option Resolution} (hfound : resultsOf row results = found.toList)
    (hunmatched : ∀ r, found = some r → r.matched = false) :
    ((priorsOf results).lookup row.index).getD "" = (found.map Resolution.source).getD "" := by
  apply lookup_getD_of_forall
  · intro p hp hindex
    obtain ⟨w, hw, rfl⟩ := List.mem_map.1 hp
    have hmem := (List.mem_filter.1 hw).1
    obtain rfl := eq_of_index_eq hrows (hresults w hmem) hrow hindex
    have hin := mem_resultsOf.2 hmem
    rw [hfound, Option.mem_toList] at hin
    simp [Option.mem_def.1 hin]
  · intro hne
    cases found with
    | none => exact absurd rfl hne
    | some r =>
      have hmem : (row, r) ∈ results := mem_resultsOf.1 (by simp [hfound])
      refine ⟨_, List.mem_map_of_mem (List.mem_filter.2 ⟨hmem, ?_⟩), rfl⟩
      simpa [hunmatched r rfl] using hne

/-- Behind the leading pass, every row was asked about, and nothing more than that came of it if it was not
matched. -/
theorem Passed.leading {rows : List Row} {results : List (Row × Resolution)} {before : List Event}
    (h : e.Passed (rows.map fun row => ⟨row, .leading b.position⟩) rows t results)
    (hlt : b.position < e.providers.length) (hrow : row ∈ rows) (hfront : e.Front row before 0 none) :
    (∀ event ∈ story row t, event.Asking b.leads) ∧ ∃ found, e.Consulted row (before ++ story row t) b.position found ∧
      resultsOf row results = (brought (found.map (·.map some))).toList := by
  obtain ⟨log, o, hstory, hshows, hfound⟩ := h.each ⟨row, .leading b.position⟩ (List.mem_map_of_mem hrow)
  obtain ⟨found, hcascade, rfl⟩ := Shows.of_map (p := e.cascade row.address 0 b.position none) hshows
  rw [show story row t = _ from hstory]
  refine ⟨List.forall_mem_cons.2 ⟨by rintro c ⟨⟩, ?_⟩, found, ?_, hfound⟩
  · exact hcascade.asking (only_asks_cascade fun position _ hstop => ⟨hstop, row, rfl⟩)
  · simpa using (hfront.begin _).askAll (e.ranked_span hlt.le) (Nat.zero_le _) hcascade

theorem leadAndSubmit_attends {rows : List Row} {writes : List (Row × Resolution)}
    (hb : e.bulkProvider? = some b) (hrows : (rows.map Row.index).Nodup) (hcancels : ∀ event ∈ t, event.cancels = false)
    (h : (e.leadAndSubmit b rows).Shows e t writes) : e.Attends b 0 (fun _ => none) rows t writes := by
  have hlt := position_lt_of_bulkProvider? hb
  unfold leadAndSubmit at h
  split at h
  · obtain ⟨t₁, results, t₂, rfl, hlead, hrest⟩ := Plan.Shows.bind h
    obtain ⟨t₃, ⟨⟩, t₄, rfl, hkeep, hlater⟩ := Plan.Shows.bind hrest
    obtain ⟨t₅, writes, t₆, rfl, hsubmit, rfl, rfl⟩ := Plan.Shows.bind
      (p := e.submitRows b (priorsOf results) (without rows (results.filter (·.2.matched)))) hlater
    simp only [List.append_nil, List.mem_append, or_imp, forall_and] at hcancels
    rw [List.append_nil, ← List.append_assoc]
    have hpassed := hlead.finish (map_row_jobs rows (.leading b.position)) hrows.of_map
    have hmatched : ((results.filter (·.2.matched)).map Prod.fst).Nodup :=
      hpassed.rows_nodup.sublist (List.filter_sublist.map _)
    obtain ⟨haside, hcovers⟩ := keepAll_aside hmatched hkeep
    have hkept : (results.filter (·.2.matched)).map Prod.fst ⊆ rows := fun row hrow => by
      obtain ⟨w, hw, rfl⟩ := List.mem_map.1 hrow
      exact hpassed.mem w (List.mem_filter.1 hw).1
    refine Attends.after hrows (fun w hw => hpassed.mem w (List.mem_filter.1 hw).1) ?_ ?_
      (fun row hrow => by simp [(hpassed.others row hrow).1, (haside row).2 fun hin => hrow (hkept hin)])
      (hpassed.covers.append (hcovers.mono hkept))
      (submitRows_attends hb (hrows.sublist (List.filter_sublist.map _)) hcancels.2.2 hsubmit)
    · intro row hrow before hfront hbefore
      obtain ⟨w, hw, rfl⟩ := List.mem_map.1 hrow
      obtain ⟨hmem, -⟩ := List.mem_filter.1 hw
      obtain ⟨hasking, found, hfound, hbrought⟩ := hpassed.leading hlt (hpassed.mem w hmem) hfront
      have hin := mem_resultsOf.2 hmem
      rw [hbrought, Option.mem_toList] at hin
      obtain rfl := eq_of_brought hin
      rw [story_append, ← List.append_assoc]
      refine ⟨some w.2, resultsOf_eq_singleton hmatched hw,
        hfound.kept (.inl (List.mem_filter.1 hw).2) (haside w.1).1, placed_of_leads w.1 ?_⟩
      simp only [List.mem_append, or_imp, forall_and]
      exact ⟨⟨hbefore, hasking⟩, fun event hevent => ((haside w.1).1 event hevent).asking⟩
    · intro row hrow hnot before hfront
      obtain ⟨hasking, found, hfound, hbrought⟩ := hpassed.leading hlt hrow hfront
      rw [story_append, (haside row).2 hnot, List.append_nil]
      refine ⟨?_, hasking⟩
      cases hfound with
      | unmatched front =>
        exact front.congr fun _ => getD_lookup_priorsOf hrows hpassed.mem hrow hbrought (by rintro _ ⟨⟩; rfl)
      | broken _ front =>
        exact front.congr fun _ => getD_lookup_priorsOf hrows hpassed.mem hrow hbrought (by rintro _ ⟨⟩)
      | @matched r matched _ =>
        have hin : (row, r) ∈ results := mem_resultsOf.1 (by simp [hbrought, brought, Except.map])
        exact absurd (List.mem_map_of_mem (List.mem_filter.2 ⟨hin, matched⟩)) hnot
  next hnone =>
    have hattends := submitRows_attends hb hrows hcancels h
    have hskip : ∀ position p, 0 ≤ position → position < b.position → e.providers[position]? = some p →
        p.available = false := by
      intro position p _ hlt' hp'
      have hmem : p ∈ e.providers.take b.position :=
        List.mem_of_getElem? (i := position) (by rw [List.getElem?_take, if_pos hlt', hp'])
      simpa using List.any_eq_false.1 (Bool.not_eq_true _ ▸ hnone) p hmem
    exact ⟨fun row hrow before hfront => hattends.each row hrow before (hfront.skip (Nat.zero_le _) hskip),
      hattends.results, hattends.others, hattends.covers⟩

/-- Behind the lookups, a row is known to the cache, or nothing is told of it. -/
theorem Passed.lookup {rows : List Row} {hits : List (Row × Resolution)} {before : List Event}
    (h : e.Passed (rows.map fun row => ⟨row, .lookup⟩) rows t hits) (hcancels : ∀ event ∈ t, event.cancels = false)
    (hrow : row ∈ rows) (hfront : e.Front row before 0 none) :
    (∀ event ∈ story row t, event.Asking b.leads) ∧
      ((resultsOf row hits = [] ∧ e.Front row (before ++ story row t) 0 none) ∨
        ∃ hit, resultsOf row hits = [hit] ∧ e.InOrder row (before ++ story row t) hit) := by
  obtain ⟨log, o, hstory, hshows, hfound⟩ := h.each ⟨row, .lookup⟩ (List.mem_map_of_mem hrow)
  change story row t = _ at hstory
  change resultsOf row hits = _ at hfound
  have hlog := not_cancels_of_story hcancels hstory
  have hbegun := hfront.begin ⟨row, .lookup⟩
  rw [hstory, hfound]
  refine ⟨List.forall_mem_cons.2 ⟨by rintro c ⟨⟩, Shows.asking hshows (only_asks_lookup ..)⟩, ?_⟩
  obtain ⟨rfl, hidle⟩ | ⟨hit, rfl, rfl⟩ | ⟨rfl, rfl⟩ := shows_lookup row hshows hlog
  · exact .inl ⟨rfl, by simpa using hbegun.append hidle⟩
  · exact .inr ⟨hit, rfl, by simpa using hbegun.recalled (some ⟨row, .lookup⟩) row.key hit⟩
  · exact .inl ⟨rfl, by simpa using hbegun.miss (some ⟨row, .lookup⟩) row.key⟩

/-- No lookup is called off. -/
theorem isOk_of_lookups {rows : List Row} {probes : List (Row × Outcome)}
    (h : e.AllShow ((rows.map fun row => ⟨row, .lookup⟩).map .inr) [] t probes)
    (hcancels : ∀ event ∈ t, event.cancels = false) : ∀ w ∈ probes, w.2.isOk = true := by
  intro w hw
  have hin := mem_resultsOf.2 hw
  have hrow : w.1 ∈ rows := by
    rw [← map_row_jobs rows .lookup]
    by_contra hnot
    rw [(h.of_other hnot).2] at hin
    cases hin
  obtain ⟨log, o, hstory, hshows, hfound⟩ := h.of_job (List.mem_map_of_mem hrow)
  rw [show resultsOf w.1 probes = _ from hfound, Option.mem_toList] at hin
  -- Only a cancellation is an error.
  obtain ⟨rfl, -⟩ | ⟨hit, rfl, -⟩ | ⟨rfl, -⟩ := shows_lookup w.1 hshows (not_cancels_of_story hcancels hstory)
  · rw [← Option.some.inj hin]
    rfl
  · rw [← Option.some.inj hin]
    rfl
  · cases hin

theorem bulkBy_attends {rows : List Row} {writes : List (Row × Resolution)} (hb : e.bulkProvider? = some b)
    (hrows : (rows.map Row.index).Nodup) (hcancels : ∀ event ∈ t, event.cancels = false)
    (h : (e.bulkBy b rows).Shows e t writes) : e.Attends b 0 (fun _ => none) rows t writes := by
  have hjobs := map_row_jobs rows .lookup
  obtain ⟨t₁, t₂, probes, rfl, hpool, hrest⟩ := Plan.Shows.pool h (hjobs.symm ▸ hrows.of_map)
  simp only [List.mem_append, or_imp, forall_and] at hcancels
  have hok := isOk_of_lookups hpool hcancels.1
  have hpassed := hpool.passed hjobs
  have hhits : hitsIn probes = resolved probes := by
    unfold hitsIn
    rw [List.takeWhile_eq_self_iff.2 hok]
  change Plan.Shows e (if !probes.all (·.2.isOk) then _ else _) _ _ at hrest
  rw [if_neg (by simpa using hok), hhits] at hrest
  obtain ⟨t₃, writes, t₄, rfl, hlead, rfl, rfl⟩ := Plan.Shows.bind hrest
  rw [List.append_nil] at hcancels ⊢
  refine Attends.after hrows hpassed.mem ?_ ?_ (fun row hrow => (hpassed.others row hrow).1) hpassed.covers
    (leadAndSubmit_attends hb (hrows.sublist (List.filter_sublist.map _)) hcancels.2 hlead)
  · intro row hin before hfront hbefore
    obtain ⟨w, hw, rfl⟩ := List.mem_map.1 hin
    obtain ⟨hasking, ⟨hnone, -⟩ | ⟨hit, hresults, horder⟩⟩ :=
      hpassed.lookup (b := b) hcancels.1 (hpassed.mem w hw) hfront
    · exact absurd hin (resultsOf_eq_nil_iff.1 hnone)
    · exact ⟨some hit, hresults, horder, placed_of_leads w.1 (List.forall_mem_append.2 ⟨hbefore, hasking⟩)⟩
  · intro row hrow hnot before hfront
    obtain ⟨hasking, ⟨-, hfront'⟩ | ⟨hit, hresults, -⟩⟩ := hpassed.lookup (b := b) hcancels.1 hrow hfront
    · exact ⟨hfront', hasking⟩
    · rw [resultsOf_eq_nil_iff.2 hnot] at hresults
      cases hresults

/-- Without a bulk provider, every row is resolved from the first provider on. -/
theorem resolveAll_inOrder {rows : List Row} {writes : List (Row × Resolution)}
    (hrows : (rows.map Row.index).Nodup) (hcancels : ∀ event ∈ t, event.cancels = false)
    (h : (Plan.finish (rows.map fun row => ⟨row, .resolve 0 none⟩)).Shows e t writes) :
    (∀ row ∈ rows, ∃ slot : Option Resolution, resultsOf row writes = slot.toList ∧
      e.InOrder row (story row t) (slot.getD {})) ∧ (∀ w ∈ writes, w.1 ∈ rows) ∧ Covers rows t := by
  have hpassed := h.finish (map_row_jobs rows (.resolve 0 none)) hrows.of_map
  refine ⟨fun row hrow => ?_, hpassed.mem, hpassed.covers⟩
  obtain ⟨log, o, hstory, hshows, hresults⟩ := hpassed.each ⟨row, .resolve 0 none⟩ (List.mem_map_of_mem hrow)
  change story row t = _ at hstory
  rw [hstory]
  have hlog := not_cancels_of_story hcancels hstory
  exact ⟨brought o, hresults, ((Front.start e row).rerun (Nat.zero_le _) hshows hlog).1⟩

/-! ## Runs -/

/-- The slot of a row has what there is for it, or the default. -/
theorem fill_of_resultsOf {addresses : List Address} {writes : List (Row × Resolution)}
    (hwrites : ∀ w ∈ writes, w.1 ∈ rowsOf addresses) (hrow : row ∈ rowsOf addresses) {slot : Option Resolution}
    (h : resultsOf row writes = slot.toList) :
    (fill (rowsOf addresses).length writes)[row.index]? = some (slot.getD {}) := by
  have hindex : ∀ w ∈ writes, w.1.index = row.index → some w.2 = slot := by
    intro w hw heq
    obtain rfl := eq_of_index_eq (nodup_index_rowsOf addresses) (hwrites w hw) hrow heq
    have hin := mem_resultsOf.2 hw
    rw [h, Option.mem_toList] at hin
    exact hin.symm
  have hlt : row.index < (rowsOf addresses).length := by
    rw [length_rowsOf]
    exact (List.getElem?_eq_some_iff.1 (mem_rowsOf.1 hrow)).1
  have hvalue : ∀ w ∈ writes, w.1.index = row.index → w.2 = slot.getD {} := fun w hw heq => by
    simp [← hindex w hw heq]
  rw [fill_getElem? hvalue hlt]
  cases slot with
  | none => simp
  | some r =>
    have hmem : (row, r) ∈ writes := mem_resultsOf.1 (by simp [h])
    rw [if_pos ⟨_, hmem, rfl⟩]

/-- Nothing calls a run off: the token does not fire, and no lookup and no submission is reported as cancelled. -/
structure Uncancelled (k : Setting σ) (t : List Event) : Prop where
  clear : ∀ s, k.world.fired s = false
  replies : ∀ event ∈ t, event.cancels = false

/-- Whatever providers answer, and whichever calls break down: in a bulk run that is not called off, available
providers are asked about a row in order, each at most once, by submission or not, until the row is settled. The
bulk provider has its place among them. A row that is not found was put to all of them, and names the last
attempt. -/
theorem bulk_asks_in_order {k : Setting σ} {addresses : List Address} {s s' : σ} {slots : List Resolution}
    (run : (e.bulk addresses).Executes e k s t slots s') (h : Uncancelled k t) :
    (∀ row ∈ rowsOf (Address.assignIds addresses), ∃ slot, slots[row.index]? = some slot ∧
      e.InOrder row (story row t) slot ∧ ∀ b, e.bulkProvider? = some b → b.Placed row (story row t)) ∧
    ∀ who position a, .started who (.geocode position a) ∈ t →
      ∃ row ∈ rowsOf (Address.assignIds addresses), .started who (.geocode position a) ∈ story row t := by
  have hrows := nodup_index_rowsOf (Address.assignIds addresses)
  have hfilter : Covers (rowsOf (Address.assignIds addresses)) t → ∀ who position a,
      .started who (.geocode position a) ∈ t → ∃ row ∈ rowsOf (Address.assignIds addresses),
        .started who (.geocode position a) ∈ story row t := by
    intro hcovers who position a hevent
    obtain ⟨row, hrow, hconcerns⟩ := hcovers _ hevent position a rfl
    exact ⟨row, hrow, List.mem_filter.2 ⟨hevent, hconcerns⟩⟩
  unfold bulk at run
  cases hb : e.bulkProvider? with
  | none =>
    rw [hb] at run
    obtain ⟨writes, hwrites, rfl⟩ := Plan.Executes.of_bind_done run
    obtain ⟨heach, hresults, hcovers⟩ := resolveAll_inOrder hrows h.replies (hwrites.shows h.clear)
    refine ⟨fun row hrow => ?_, hfilter hcovers⟩
    obtain ⟨slot, hslot, horder⟩ := heach row hrow
    exact ⟨_, fill_of_resultsOf hresults hrow hslot, horder, by rintro _ ⟨⟩⟩
  | some b =>
    rw [hb] at run
    obtain ⟨writes, hwrites, rfl⟩ := Plan.Executes.of_bind_done run
    have hattends := bulkBy_attends hb hrows h.replies (hwrites.shows h.clear)
    refine ⟨fun row hrow => ?_, hfilter hattends.covers⟩
    obtain ⟨slot, hslot, horder, hplaced⟩ := hattends.each row hrow [] (.start e row) (by simp)
    refine ⟨_, fill_of_resultsOf hattends.results hrow hslot, horder, ?_⟩
    rintro _ ⟨⟩
    exact hplaced

/-! ## Runs that nothing disturbs -/

section Undisturbed

variable {k : Setting σ} {s s' : σ}

/-- The reply of a call that ends is not that it was cancelled. -/
theorem Undisturbed.not_cancels (hk : Undisturbed k) {who : Option Job} {c : Call} {reply : collaborators.Reply c}
    (h : k.world.finish c s = (some reply, s')) : (Event.answered who c reply).cancels = false := by
  obtain ⟨reply', s'', hfinish, hreply⟩ := hk.reply c s
  obtain rfl : reply = reply' := by
    rw [h, Prod.mk.injEq, Option.some.injEq] at hfinish
    exact hfinish.1
  unfold Event.cancels
  split
  · rename_i heq
    cases heq
    exact absurd rfl hreply
  · rename_i heq
    cases heq
    exact absurd rfl hreply
  · rfl

/-- A run that nothing disturbs is not called off. -/
theorem Undisturbed.uncancelled (hk : Undisturbed k) {c c' : Config α} (steps : Config.Steps e k c s t c' s') :
    Uncancelled k t where
  clear := hk.clear
  replies := by
    refine steps.of_replies (fun hfinish => hk.not_cancels hfinish) fun event hother => ?_
    cases event with
    | answered who c reply => exact absurd rfl (hother who c reply)
    | _ => rfl

end Undisturbed

/-- Three providers are asked about two addresses, of which the second takes submissions of one row. -/
theorem bulk_asks_in_order_two : ∃ t slots s',
    (Sample.engine.bulk [Sample.home, Sample.office]).Executes Sample.engine (InMemory.setting Sample.answer false) {}
      t slots s' ∧
    Uncancelled (InMemory.setting Sample.answer false) t ∧
    ∀ row ∈ rowsOf (Address.assignIds [Sample.home, Sample.office]), ∃ slot, slots[row.index]? = some slot ∧
      Sample.engine.InOrder row (story row t) slot ∧ BulkProvider.Placed ⟨1, "census", 1⟩ row (story row t) := by
  have hk := InMemory.undisturbed Sample.answer_ne_cancelled
  obtain ⟨t, slots, s', run⟩ := (hk.ensures (Sample.engine.bulk [Sample.home, Sample.office]) {}).1 [] _ _ .refl
  have hclear := hk.uncancelled run
  refine ⟨t, slots, s', run, hclear, fun row hrow => ?_⟩
  obtain ⟨slot, hslot, horder, hplaced⟩ := (bulk_asks_in_order run hclear).1 row hrow
  exact ⟨slot, hslot, horder, hplaced _ rfl⟩

end Geocoding.Engine
