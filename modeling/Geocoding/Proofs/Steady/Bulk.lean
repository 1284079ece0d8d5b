import Geocoding.Proofs.Steady.Batch
import Mathlib.Data.List.TakeWhile

/-!
# Bulk runs with steady collaborators

A bulk run gives every row its value, where the values fit the routes that a row may take: it is a hit, or
a provider ranked before the bulk provider has it, or the bulk provider has it, or it is resolved from there
on. Whether they do depends on how the bulk provider may answer the chunks that it is given.
-/

namespace Geocoding.Engine

variable {α σ : Type}

/-! ## Routes -/

/-- What the providers before a position come to. -/
def leadOf (e : Engine) (m : Conduct σ) (position : Nat) (a : Address) : Resolution :=
  consult m.answer a (e.span 0 position) none

/-- The rows that the providers before a position have not matched. -/
def remaining (e : Engine) (m : Conduct σ) (position : Nat) (rows : List Row) : List Row :=
  rows.filter fun row => !(e.leadOf m position row.address).matched

/-- The value of a row is what the providers from a position on come to. -/
def Follows (e : Engine) (m : Conduct σ) (value : Row → Resolution) (row : Row) (first : Nat)
    (prior : Option String) : Prop :=
  consult m.answer row.address (e.span first e.providers.length) prior = value row

/-- What becomes of a row when the chunk it was submitted in gets a reply. -/
def landing (e : Engine) (m : Conduct σ) (b : BulkProvider) (reply : Except Error Answers) (row : Row) :
    Resolution :=
  let rest := consult m.answer row.address (e.span b.position e.providers.length)
    (some (e.leadOf m b.position row.address).source)
  match reply with
  | .error _ => rest
  | .ok answers => match answers.get? row.index.repr with
    | some r =>
      if r.matched then r
      else consult m.answer row.address (e.span (b.position + 1) e.providers.length) (some b.name)
    | none => rest

/-- However a chunk may be answered, every row in it lands at its value. -/
def Accounts (e : Engine) (m : Conduct σ) (b : BulkProvider) (value : Row → Resolution)
    (chunk : List Row) : Prop :=
  ∀ reply, m.mayAnswer b.position (chunk.map submitted) reply →
    reply ≠ .error .cancelled ∧ ∀ row ∈ chunk, e.landing m b reply row = value row

/-- A job resolves its row to its value. -/
def Job.Follows (e : Engine) (m : Conduct σ) (value : Row → Resolution) (j : Job) : Prop :=
  ∃ first prior, j.stage = .resolve first prior ∧ e.Follows m value j.row first prior

section Route

variable {e : Engine} {m : Conduct σ} {b : BulkProvider} {value : Row → Resolution}
  {priors : List (Nat × String)} {row : Row}

theorem follows_unanswered
    (hprior : (priors.lookup row.index).getD "" = (e.leadOf m b.position row.address).source)
    (hfollows : e.Follows m value row b.position (some (e.leadOf m b.position row.address).source)) :
    (unanswered b priors row).Follows e m value :=
  ⟨_, _, rfl, (consult_congr hprior _).trans hfollows⟩

/-- A row of a chunk that was answered has its value, or is left to a job that resolves it to its value. -/
theorem settleRow_of_landing {answers : Answers}
    (hprior : (priors.lookup row.index).getD "" = (e.leadOf m b.position row.address).source)
    (hlanding : e.landing m b (.ok answers) row = value row) :
    settleRow b priors answers row = .inl (row, value row) ∨
      ∃ j, settleRow b priors answers row = .inr j ∧ j.row = row ∧ j.Follows e m value := by
  unfold settleRow
  unfold landing at hlanding
  cases hget : answers.get? row.index.repr with
  | none =>
    simp only [hget] at hlanding ⊢
    exact .inr ⟨_, rfl, rfl, follows_unanswered hprior hlanding⟩
  | some r =>
    simp only [hget] at hlanding ⊢
    split at hlanding
    next hmatched => exact .inl (by rw [if_pos hmatched, hlanding])
    next hunmatched => exact .inr ⟨_, if_neg hunmatched, rfl, _, _, rfl, hlanding⟩

end Route

/-! ## Rows behind the leading providers -/

section Lead

variable {rows : List Row} {results : List (Row × Resolution)} {lead : Row → Resolution}
  (hrows : (rows.map Row.index).Nodup) (hright : Right rows lead results)
  (hall : ∀ row ∈ rows, (row, lead row) ∈ results)
include hrows hright hall

/-- The rows that are left when the matched ones are taken away are those that are not matched. -/
theorem without_matched :
    without rows (results.filter (·.2.matched)) = rows.filter fun row => !(lead row).matched := by
  apply List.filter_congr
  intro row hrow
  congr 1
  rw [Bool.eq_iff_iff, List.any_eq_true]
  constructor
  · rintro ⟨w, hw, heq⟩
    obtain ⟨hw, hmatched⟩ := List.mem_filter.1 hw
    have hsame := eq_of_index_eq hrows (hright w hw).1 hrow (by simpa using heq)
    rw [← hsame, ← (hright w hw).2]
    exact hmatched
  · intro hmatched
    exact ⟨_, List.mem_filter.2 ⟨hall row hrow, hmatched⟩, by simp⟩

/-- A row that is not matched is submitted with the provider that was asked last about it. -/
theorem lookup_priorsOf {row : Row} (hrow : row ∈ rows) (hunmatched : (lead row).matched = false) :
    ((priorsOf results).lookup row.index).getD "" = (lead row).source := by
  apply lookup_getD_of_forall
  · intro p hp heq
    obtain ⟨w, hw, rfl⟩ := List.mem_map.1 hp
    have hw := (List.mem_filter.1 hw).1
    have hsame := eq_of_index_eq hrows (hright w hw).1 hrow heq
    simp only [(hright w hw).2, hsame]
  · -- Where there is a name to pass on, there is an entry for the row.
    intro hne
    have hmem : (row, lead row) ∈ results.filter fun w => !w.2.matched && w.2.source != "" :=
      List.mem_filter.2 ⟨hall row hrow, by simp [hunmatched, hne]⟩
    exact ⟨_, List.mem_map_of_mem hmem, rfl⟩

end Lead

/-! ## Rows that were looked up -/

section Probe

variable {rows : List Row} {probes : List (Row × Outcome)} {known : Row → Option Resolution}

theorem hit_of_mem (known : Row → Option Resolution) (hprobes : ∀ w ∈ probes, w.1 ∈ rows ∧
    (w.2 = .ok (known w.1) ∨ w.2 = .error .cancelled)) {w : Row × Resolution} (hw : w ∈ hitsIn probes) :
    w.1 ∈ rows ∧ known w.1 = some w.2 := by
  have hw := (List.takeWhile_sublist _).subset (mem_resolved.1 hw)
  obtain ⟨hrow, heq | heq⟩ := hprobes _ hw
  · exact ⟨hrow, by simpa using heq.symm⟩
  · cases heq

theorem mem_hitsIn (hok : probes.all (·.2.isOk) = true) {row : Row} {r : Resolution} {outcome : Outcome}
    (hmem : (row, outcome) ∈ probes) (hprobe : outcome = .ok (some r) ∨ outcome = .error .cancelled) :
    (row, r) ∈ hitsIn probes := by
  have hall : probes.takeWhile (·.2.isOk) = probes := by
    exact List.takeWhile_eq_self_iff.2 (List.all_eq_true.1 hok)
  rcases hprobe with rfl | rfl
  · unfold hitsIn
    rw [hall, mem_resolved]
    exact hmem
  · exact absurd (List.all_eq_true.1 hok _ hmem) (by simp [Except.isOk, Except.toBool])

/-- The rows that are left when hits are taken away are those that are not known. -/
theorem without_hits {hits : List (Row × Resolution)} (hrows : (rows.map Row.index).Nodup)
    (hhits : ∀ w ∈ hits, w.1 ∈ rows ∧ known w.1 = some w.2)
    (hall : ∀ row ∈ rows, ∀ r, known row = some r → (row, r) ∈ hits) :
    without rows hits = rows.filter fun row => (known row).isNone := by
  apply List.filter_congr
  intro row hrow
  rw [Bool.eq_iff_iff, Bool.not_eq_true', Option.isNone_iff_eq_none, List.any_eq_false]
  constructor
  · intro hnone
    by_contra hsome
    obtain ⟨r, hknown⟩ := Option.ne_none_iff_exists'.1 hsome
    exact hnone _ (hall row hrow r hknown) (by simp)
  · intro hnone w hw heq
    have hsame := eq_of_index_eq hrows (hhits w hw).1 hrow (by simpa using heq)
    have hknown := (hhits w hw).2
    rw [hsame, hnone] at hknown
    cases hknown

end Probe

/-! ## Providers that are not available -/

/-- Where no provider is available, none is asked. -/
theorem consult_of_unavailable {answer : Nat → Address → Except Error Resolution} {a : Address}
    {providers : List (Provider × Nat)} (h : ∀ p ∈ providers, p.1.available = false)
    (last : Option String) : consult answer a providers last = .unmatched (last.getD "") := by
  induction providers with
  | nil => rfl
  | cons provider rest ih =>
    obtain ⟨p, position⟩ := provider
    unfold consult
    rw [if_pos (by simpa using h _ List.mem_cons_self)]
    exact ih fun q hq => h q (List.mem_cons_of_mem _ hq)

theorem leadOf_of_unavailable {e : Engine} {m : Conduct σ} {position : Nat} (a : Address)
    (h : (e.providers.take position).any Provider.available = false) :
    e.leadOf m position a = .unmatched "" := by
  refine consult_of_unavailable ?_ none
  intro q hq
  obtain ⟨hprovider, -, hlt⟩ := e.mem_span hq
  have hmem : q.1 ∈ e.providers.take position :=
    List.mem_of_getElem? ((List.getElem?_take_of_lt hlt).trans hprovider)
  simpa using List.any_eq_false.1 h q.1 hmem

/-! ## Keeping -/

section Steady

variable {e : Engine} {k : Setting σ} {m : Conduct σ} (h : Steady e k m)
  {target : String → Option Resolution} {s : σ}

theorem Steady.wp_keepAll {R : Promise k} {results : List (Row × Resolution)} {f : Unit → Plan α}
    {Q : α → σ → Prop} (hR : (h.promise target).Implies R)
    (hkeys : ∀ w ∈ results, e.caching = true → target w.1.key = some w.2)
    (hnext : ∀ s', (h.promise target).holds s s' →
      (∀ w ∈ results, e.Kept k m target w.1.key w.2 s') → (f ()).wp e R Q s') :
    ((keepAll results).bind f).wp e R Q s := by
  refine Plan.wp.pool (r := fun _ => none) (P := fun j s' => ∀ r, j.stage = .keep r →
    e.Kept k m target j.row.key r s') hR ?_ fun _ s' hs _ hall => hnext s' hs ?_
  · intro j hj
    obtain ⟨w, hw, rfl⟩ := List.mem_map.1 hj
    refine wp.bind (h.wp_keep (hkeys w hw) fun s₁ hs₁ hkept => wp.done fun s' hs' => .inl ⟨rfl, ?_⟩)
    rintro _ ⟨⟩
    exact Kept.later h (fun hcaching _ hclear => hkept hcaching hclear) hs'
  · intro w hw
    obtain ⟨outcome, -, ⟨-, hkept⟩ | ⟨hfired, -⟩⟩ := hall (.inl rfl) _ (List.mem_map_of_mem hw)
    · exact hkept _ rfl
    · intro _ _ hclear
      rw [hfired] at hclear
      cases hclear

/-! ## Submissions -/

/-- What has come of submitting rows: results that are right and kept, and jobs for the other rows, unless
the token has cut it short. -/
structure Dealt (e : Engine) (k : Setting σ) (m : Conduct σ) (target : String → Option Resolution)
    (value : Row → Resolution) (rows : List Row) (settled : Settled) (completed : Bool) (s : σ) : Prop where
  right : Right rows value settled.results
  jobs : ∀ j ∈ settled.leftovers, j.row ∈ rows ∧ j.Follows e m value
  all : completed = true → ∀ row ∈ rows,
    (row, value row) ∈ settled.results ∨ ∃ j ∈ settled.leftovers, j.row = row
  cut : completed = false → k.world.fired s = true
  kept : ∀ w ∈ settled.results, e.Kept k m target w.1.key w.2 s

variable {value : Row → Resolution}

theorem Dealt.nothing {rows : List Row} (hfired : k.world.fired s = true) :
    e.Dealt k m target value rows {} false s where
  right := by simp [Right]
  jobs := by simp
  all := by simp
  cut _ := hfired
  kept := by simp

theorem Dealt.append {rows rows' : List Row} {settled settled' : Settled} {completed : Bool}
    (hd : e.Dealt k m target value rows settled true s)
    (hd' : e.Dealt k m target value rows' settled' completed s) :
    e.Dealt k m target value (rows ++ rows')
      ⟨settled.results ++ settled'.results, settled.leftovers ++ settled'.leftovers⟩ completed s where
  right := (hd.right.mono (List.subset_append_left _ _)).append (hd'.right.mono (List.subset_append_right _ _))
  jobs j hj := by
    rcases List.mem_append.1 hj with hj | hj
    · exact ⟨List.mem_append_left _ (hd.jobs j hj).1, (hd.jobs j hj).2⟩
    · exact ⟨List.mem_append_right _ (hd'.jobs j hj).1, (hd'.jobs j hj).2⟩
  all hcompleted row hrow := by
    rcases List.mem_append.1 hrow with hrow | hrow
    · refine (hd.all rfl row hrow).imp (List.mem_append_left _) ?_
      rintro ⟨j, hj, heq⟩
      exact ⟨j, List.mem_append_left _ hj, heq⟩
    · refine (hd'.all hcompleted row hrow).imp (List.mem_append_right _) ?_
      rintro ⟨j, hj, heq⟩
      exact ⟨j, List.mem_append_right _ hj, heq⟩
  cut := hd'.cut
  kept w hw := (List.mem_append.1 hw).elim (hd.kept w) (hd'.kept w)

theorem Dealt.later {rows : List Row} {settled : Settled} {completed : Bool} {s' : σ}
    (hd : e.Dealt k m target value rows settled completed s) (hs : (h.promise target).holds s s') :
    e.Dealt k m target value rows settled completed s' where
  right := hd.right
  jobs := hd.jobs
  all := hd.all
  cut hcut := hs.1 (hd.cut hcut)
  kept w hw := Kept.later h (hd.kept w hw) hs

variable {b : BulkProvider} {priors : List (Nat × String)}

/-- A chunk that has been refused is left to jobs. -/
theorem Dealt.refused {chunk : List Row}
    (hprior : ∀ row ∈ chunk,
      (priors.lookup row.index).getD "" = (e.leadOf m b.position row.address).source)
    {error : Error} (hlanding : ∀ row ∈ chunk, e.landing m b (.error error) row = value row) :
    e.Dealt k m target value chunk ⟨[], chunk.map (unanswered b priors)⟩ true s where
  right := by simp [Right]
  jobs := List.forall_mem_map.2 fun row hrow =>
    ⟨hrow, follows_unanswered (hprior row hrow) (hlanding row hrow)⟩
  all _ row hrow := .inr ⟨_, List.mem_map_of_mem hrow, rfl⟩
  cut := by simp
  kept := by simp

theorem right_answered {chunk : List Row} {answers : Answers}
    (hprior : ∀ row ∈ chunk,
      (priors.lookup row.index).getD "" = (e.leadOf m b.position row.address).source)
    (hlanding : ∀ row ∈ chunk, e.landing m b (.ok answers) row = value row) :
    Right chunk value (resultsIn (chunk.map (settleRow b priors answers))) := by
  intro w hw
  obtain ⟨row, hrow, heq⟩ := List.mem_map.1 (mem_resultsIn.1 hw)
  obtain hvalue | ⟨j, hjob, -⟩ := settleRow_of_landing (hprior row hrow) (hlanding row hrow)
  · rw [hvalue, Sum.inl.injEq] at heq
    exact heq ▸ ⟨hrow, rfl⟩
  · rw [hjob] at heq
    cases heq

/-- A chunk that has been answered is settled, when its results have been kept. -/
theorem Dealt.answered {chunk : List Row} {answers : Answers}
    (hprior : ∀ row ∈ chunk,
      (priors.lookup row.index).getD "" = (e.leadOf m b.position row.address).source)
    (hlanding : ∀ row ∈ chunk, e.landing m b (.ok answers) row = value row)
    (hkept : ∀ w ∈ resultsIn (chunk.map (settleRow b priors answers)),
      e.Kept k m target w.1.key w.2 s) :
    e.Dealt k m target value chunk
      ⟨resultsIn (chunk.map (settleRow b priors answers)), jobsIn (chunk.map (settleRow b priors answers))⟩
      true s where
  right := right_answered hprior hlanding
  jobs j hj := by
    obtain ⟨row, hrow, heq⟩ := List.mem_map.1 (mem_jobsIn.1 hj)
    obtain hvalue | ⟨j', hjob, rfl, hfollows⟩ := settleRow_of_landing (hprior row hrow) (hlanding row hrow)
    · rw [hvalue] at heq
      cases heq
    · rw [hjob, Sum.inr.injEq] at heq
      exact heq ▸ ⟨hrow, hfollows⟩
  all _ row hrow := by
    have hmem := List.mem_map_of_mem (f := settleRow b priors answers) hrow
    obtain hvalue | ⟨j, hjob, heq, -⟩ := settleRow_of_landing (hprior row hrow) (hlanding row hrow)
    · exact .inl (mem_resultsIn.2 (hvalue ▸ hmem))
    · exact .inr ⟨j, mem_jobsIn.2 (hjob ▸ hmem), heq⟩
  cut := by simp
  kept := hkept

/-- Chunks that account for their rows are dealt with one after the other. -/
theorem Steady.wp_submitAll (value : Row → Resolution) {chunks : List (List Row)}
    {Q : Settled × Bool → σ → Prop}
    (hprior : ∀ row ∈ chunks.flatten,
      (priors.lookup row.index).getD "" = (e.leadOf m b.position row.address).source)
    (haccounts : ∀ chunk ∈ chunks, e.Accounts m b value chunk)
    (htarget : ∀ row ∈ chunks.flatten, e.caching = true → target row.key = some (value row))
    (hQ : ∀ settled completed s', (h.promise target).holds s s' →
      e.Dealt k m target value chunks.flatten settled completed s' → Q (settled, completed) s') :
    (submitAll b priors chunks).wp e (h.promise target) Q s := by
  induction chunks generalizing s Q with
  | nil =>
    refine fun s' hs' => hQ _ _ s' ((h.promise target).drifts hs') ?_
    exact ⟨by simp [Right], by simp, by simp, by simp, by simp⟩
  | cons chunk chunks ih =>
    -- Where the token is seen, nothing more is submitted, and what was settled stands.
    have hstop : ∀ s₁ s', (h.promise target).holds s s₁ → k.world.fired s₁ = true → Drifts k s₁ s' →
        Q ({}, false) s' := fun s₁ s' hs₁ hfired hs' =>
      have hs := (h.promise target).drifts hs'
      hQ _ _ s' ((h.promise target).trans hs₁ hs) (.nothing (hs.1 hfired))
    -- The other chunks, when this one has been dealt with.
    have hrest : ∀ s₁ results jobs, (h.promise target).holds s s₁ →
        e.Dealt k m target value chunk ⟨results, jobs⟩ true s₁ →
        ((submitAll b priors chunks).bind fun rest => Plan.done
          (⟨results ++ rest.1.results, jobs ++ rest.1.leftovers⟩, rest.2)).wp e (h.promise target) Q s₁ := by
      intro s₁ results jobs hs₁ hdealt
      refine Plan.wp.bind (ih ?_ ?_ ?_ ?_)
      · intro row hrow
        exact hprior row (List.mem_append_right _ hrow)
      · intro chunk hchunk
        exact haccounts chunk (List.mem_cons_of_mem _ hchunk)
      · intro row hrow
        exact htarget row (List.mem_append_right _ hrow)
      · intro settled completed s₂ hs₂ hdealt₂ s' hs'
        have hs' := (h.promise target).drifts hs'
        refine hQ _ _ s' ((h.promise target).trans hs₁ ((h.promise target).trans hs₂ hs')) ?_
        exact Dealt.later h ((Dealt.later h hdealt hs₂).append hdealt₂) hs'
    apply Plan.wp.fired
    intro s₁ hs₁
    have hs₁ := (h.promise target).drifts hs₁
    cases hfired : k.world.fired s₁ with
    | true =>
      intro s' hs'
      exact hstop s₁ s' hs₁ hfired hs'
    | false =>
      simp only [Bool.false_eq_true, if_false]
      have hchunk := List.forall_mem_cons.1 haccounts
      refine Plan.wp.bind (Plan.wp.ofTask (h.wp_guarded trivial (by rintro key r ⟨⟩) ?_ ?_)
        (Promise.Implies.refl _))
      · intro reply s₂ s₃ hs₂ hs₃ hapt
        obtain ⟨hclear, hlanding⟩ := hchunk.1 reply hapt
        have hs₃ := (h.promise target).trans hs₁ ((h.promise target).trans hs₂ hs₃)
        have hprior : ∀ row ∈ chunk, _ := fun row hrow => hprior row (List.mem_append_left _ hrow)
        cases reply with
        | error error =>
          have hclear : error.isCancelled = false := by
            cases error <;> first | rfl | exact absurd rfl hclear
          simp only [hclear, Bool.false_eq_true, if_false]
          exact hrest s₃ [] _ hs₃ (.refused hprior hlanding)
        | ok answers =>
          have hright := right_answered hprior hlanding
          apply h.wp_keepAll (Promise.Implies.refl _)
          · intro w hw hcaching
            rw [(hright w hw).2]
            exact htarget w.1 (List.mem_append_left _ (hright w hw).1) hcaching
          · intro s₄ hs₄ hkept
            exact hrest s₄ _ _ ((h.promise target).trans hs₃ hs₄) (.answered hprior hlanding hkept)
      · intro s₂ hs₂ hfired₂ s' hs'
        exact hstop s₂ s' ((h.promise target).trans hs₁ hs₂) hfired₂ hs'

theorem Steady.wp_submitRows (value : Row → Resolution) {rows : List Row}
    {Q : List (Row × Resolution) → σ → Prop}
    (hprior : ∀ row ∈ rows,
      (priors.lookup row.index).getD "" = (e.leadOf m b.position row.address).source)
    (haccounts : ∀ chunk ∈ chunksOf (e.submissionSize b - 1) rows, e.Accounts m b value chunk)
    (hopen : ∀ row ∈ rows, e.Open m target row.key (value row) s)
    (hQ : ∀ writes s', (h.promise target).holds s s' → e.Written k m target value rows writes s' →
      Q writes s') :
    (e.submitRows b priors rows).wp e (h.promise target) Q s := by
  have hflatten := flatten_chunksOf (e.submissionSize b - 1) rows
  refine Plan.wp.bind (h.wp_submitAll value ?_ haccounts ?_ ?_)
  · intro row hrow
    exact hprior row (hflatten ▸ hrow)
  · intro row hrow hcaching
    exact (hopen row (hflatten ▸ hrow) hcaching).1
  · intro settled completed s₁ hs₁ hdealt
    rw [hflatten] at hdealt
    cases completed with
    | false =>
      intro s' hs'
      have hs' := (h.promise target).drifts hs'
      exact hQ _ s' ((h.promise target).trans hs₁ hs') (.of_fired hdealt.right (hs'.1 (hdealt.cut rfl)))
    | true =>
      apply h.wp_finish value (Promise.Implies.refl _)
      · intro j hj
        obtain ⟨hrow, first, prior, hstage, hfollows⟩ := hdealt.jobs j hj
        exact ⟨first, prior, hstage, .inr ⟨hfollows, Steady.open_later hs₁ (hopen j.row hrow)⟩⟩
      · intro results s₂ hs₂ hwritten s' hs'
        have hs' := (h.promise target).drifts hs'
        have hs := (h.promise target).trans hs₂ hs'
        have hjobs : settled.leftovers.map Job.row ⊆ rows := fun row hrow => by
          obtain ⟨j, hj, rfl⟩ := List.mem_map.1 hrow
          exact (hdealt.jobs j hj).1
        refine hQ _ s' ((h.promise target).trans hs₁ hs)
          (.completes hdealt.right (Written.later h hwritten hs') hjobs ?_)
        intro row hrow
        rcases hdealt.all rfl row hrow with hmem | ⟨j, hj, rfl⟩
        · exact .inr ⟨hmem, Kept.later h (hdealt.kept _ hmem) hs⟩
        · exact .inl (List.mem_map_of_mem hj)

/-- A job of a leading provider comes to what these providers come to. -/
theorem Steady.wp_leading_task (row : Row) (position : Nat) :
    wp (h.promise target) (ComesTo k (some (e.leadOf m position row.address)) fun _ => True)
      (e.task ⟨row, .leading position⟩) s := by
  refine wp.bind (h.wp_askAll _ _ ?_ ?_)
  · intro s₁ _
    exact wp.done fun _ _ => .inl ⟨rfl, trivial⟩
  · intro s₁ _ hfired
    exact wp.done fun s' hs' => .inr ⟨hs'.1 hfired, rfl⟩

theorem Steady.wp_leadAndSubmit (value : Row → Resolution) {rows : List Row}
    {Q : List (Row × Resolution) → σ → Prop}
    (hrows : (rows.map Row.index).Nodup)
    (hlead : ∀ row ∈ rows, (e.leadOf m b.position row.address).matched = true →
      e.leadOf m b.position row.address = value row)
    (haccounts : ∀ chunk ∈ chunksOf (e.submissionSize b - 1) (e.remaining m b.position rows),
      e.Accounts m b value chunk)
    (hopen : ∀ row ∈ rows, e.Open m target row.key (value row) s)
    (hQ : ∀ writes s', (h.promise target).holds s s' → e.Written k m target value rows writes s' →
      Q writes s') :
    (e.leadAndSubmit b rows).wp e (h.promise target) Q s := by
  unfold leadAndSubmit
  split
  next havailable =>
    let lead := fun row : Row => e.leadOf m b.position row.address
    apply Plan.wp.finish (r := fun j => lead j.row) (P := fun _ _ => True) (Promise.Implies.refl _)
    · exact List.forall_mem_map.2 fun row hrow => h.wp_leading_task row b.position
    · intro results s₁ hs₁ hsome hall
      have hright : Right rows lead results := by
        intro w hw
        obtain ⟨j, hj, rfl⟩ := hsome w hw
        obtain ⟨row, hrow, rfl⟩ := List.mem_map.1 hj
        exact ⟨hrow, rfl⟩
      have hanswered : Right rows value (results.filter (·.2.matched)) := by
        intro w hw
        obtain ⟨hw, hmatched⟩ := List.mem_filter.1 hw
        obtain ⟨hrow, hvalue⟩ := hright w hw
        rw [hvalue] at hmatched
        exact ⟨hrow, hvalue.trans (hlead w.1 hrow hmatched)⟩
      apply h.wp_keepAll (Promise.Implies.refl _)
      · intro w hw hcaching
        obtain ⟨hrow, hvalue⟩ := hanswered w hw
        rw [hvalue]
        exact (hopen w.1 hrow hcaching).1
      intro s₂ hs₂ hkept
      apply Plan.wp.fired
      intro s₃ hs₃
      have hs₃ := (h.promise target).drifts hs₃
      have hsofar := (h.promise target).trans hs₁ ((h.promise target).trans hs₂ hs₃)
      cases hfired : k.world.fired s₃ with
      | true =>
        intro s' hs'
        have hs' := (h.promise target).drifts hs'
        exact hQ _ s' ((h.promise target).trans hsofar hs') (.of_fired hanswered (hs'.1 hfired))
      | false =>
        have hs₂₃ := (h.promise target).trans hs₂ hs₃
        have hmem : ∀ row ∈ rows, (row, lead row) ∈ results := fun row hrow =>
          (hall (Steady.lasts_false hs₂₃ hfired) _ (List.mem_map_of_mem hrow)).1
        have hsubset : e.remaining m b.position rows ⊆ rows := fun _ hrow => List.mem_of_mem_filter hrow
        simp only [Bool.false_eq_true, if_false]
        -- All rows were asked about, so those that are left are those that were not matched.
        rw [without_matched hrows hright hmem]
        refine Plan.wp.bind (h.wp_submitRows value ?_ haccounts
          (fun row hrow => Steady.open_later hsofar (hopen row (hsubset hrow))) ?_)
        · intro row hrow
          have hunmatched := (List.mem_filter.1 hrow).2
          exact lookup_priorsOf hrows hright hmem (hsubset hrow) (by simpa using hunmatched)
        · intro writes s₄ hs₄ hwritten s' hs'
          have hs' := (h.promise target).drifts hs'
          have hs := (h.promise target).trans hs₄ hs'
          refine hQ _ s' ((h.promise target).trans hsofar hs)
            (.completes hanswered (Written.later h hwritten hs') hsubset ?_)
          intro row hrow
          cases hmatched : (lead row).matched with
          | true =>
            have hvalue : lead row = value row := hlead row hrow hmatched
            have hin : (row, value row) ∈ results.filter (·.2.matched) :=
              List.mem_filter.2 ⟨hvalue ▸ hmem row hrow, hvalue ▸ hmatched⟩
            exact .inr ⟨hin, Kept.later h (hkept _ hin) ((h.promise target).trans hs₃ hs)⟩
          | false => exact .inl (List.mem_filter.2 ⟨hrow, by simp [lead, hmatched]⟩)
  next hnone =>
    have hnone : (e.providers.take b.position).any Provider.available = false := by simpa using hnone
    -- Without leading providers no one has been asked, which is the same as someone without a name.
    have hlead : ∀ row : Row, e.leadOf m b.position row.address = .unmatched "" := fun row =>
      leadOf_of_unavailable row.address hnone
    have hremaining : e.remaining m b.position rows = rows :=
      List.filter_eq_self.2 fun row _ => by rw [hlead row]; rfl
    rw [hremaining] at haccounts
    refine h.wp_submitRows value ?_ haccounts hopen hQ
    intro row _
    rw [hlead row]
    rfl

/-! ## Whole runs -/

/-- The routes that a row may take in a bulk run from a state all lead to its value, and what is kept for it
is no other: a hit stays what it is, and misses are led, submitted and resolved as their values are. -/
structure Fits (e : Engine) (m : Conduct σ) (target : String → Option Resolution) (b : BulkProvider)
    (value : Row → Resolution) (rows : List Row) (s : σ) : Prop where
  hit : ∀ row ∈ rows, ∀ r, e.found m s row.key = some r → r = value row ∧ target row.key = none
  miss : ∀ row ∈ e.misses m s rows, e.caching = true → target row.key = some (value row)
  lead : ∀ row ∈ e.misses m s rows, (e.leadOf m b.position row.address).matched = true →
    e.leadOf m b.position row.address = value row
  accounts : ∀ chunk ∈ chunksOf (e.submissionSize b - 1) (e.remaining m b.position (e.misses m s rows)),
    e.Accounts m b value chunk

/-- A lookup while no entry changes finds what the cache has. -/
theorem Steady.wp_lookup_task (row : Row) :
    wp h.frozen (ComesTo k (e.found m s row.key) fun _ => True) (e.task ⟨row, .lookup⟩) s := by
  refine h.wp_lookup (fun s₁ s' hs₁ _ => .inl ⟨?_, trivial⟩) fun s' _ hfired => .inr ⟨hfired, rfl⟩
  rw [Steady.found_eq hs₁ rfl]

theorem Steady.wp_bulkBy {rows : List Row} {Q : List (Row × Resolution) → σ → Prop}
    (hrows : (rows.map Row.index).Nodup) (hfits : e.Fits m target b value rows s)
    (hQ : ∀ writes s', (h.promise target).holds s s' → e.Written k m target value rows writes s' →
      Q writes s') :
    (e.bulkBy b rows).wp e (h.promise target) Q s := by
  apply Plan.wp.pool (r := fun j => e.found m s j.row.key) (P := fun _ _ => True) h.frozen_implies
  · exact List.forall_mem_map.2 fun row hrow => h.wp_lookup_task row
  intro probes s₁ hs₁ hsome hall
  have hs₁ : (h.promise target).holds s s₁ := h.frozen_implies s s₁ hs₁
  have hprobe : ∀ w ∈ probes, w.1 ∈ rows ∧
      (w.2 = .ok (e.found m s w.1.key) ∨ k.world.fired s₁ = true ∧ w.2 = .error .cancelled) := by
    intro w hw
    obtain ⟨j, hj, hrow, hcomes⟩ := hsome w hw
    obtain ⟨row, hmem, rfl⟩ := List.mem_map.1 hj
    rw [hrow]
    exact ⟨hmem, hcomes.imp_left And.left⟩
  have hhits : ∀ w ∈ hitsIn probes, w.1 ∈ rows ∧ e.found m s w.1.key = some w.2 := fun w hw =>
    hit_of_mem (fun row => e.found m s row.key)
      (fun w hw => ⟨(hprobe w hw).1, (hprobe w hw).2.imp_right And.right⟩) hw
  have hright : Right rows value (hitsIn probes) := fun w hw =>
    ⟨(hhits w hw).1, (hfits.hit w.1 (hhits w hw).1 w.2 (hhits w hw).2).1⟩
  simp only [Plan.done_bind]
  cases hok : probes.all (·.2.isOk) with
  | false =>
    obtain ⟨w, hw, hfailed⟩ := List.all_eq_false.1 hok
    -- A lookup that failed was cancelled, and only the token does that.
    have hfired : k.world.fired s₁ = true := by
      rcases (hprobe w hw).2 with heq | ⟨hfired, -⟩
      · exact absurd (by rw [heq]; rfl) hfailed
      · exact hfired
    intro s' hs'
    have hs' := (h.promise target).drifts hs'
    exact hQ _ s' ((h.promise target).trans hs₁ hs') (.of_fired hright (hs'.1 hfired))
  | true =>
    have hhit : ∀ row ∈ rows, ∀ r, e.found m s row.key = some r → (row, r) ∈ hitsIn probes := by
      intro row hrow r hfound
      obtain ⟨outcome, hmem, hcomes⟩ := hall (.inl rfl) _ (List.mem_map_of_mem hrow)
      exact mem_hitsIn hok hmem (hfound ▸ hcomes.imp And.left And.right)
    have hmisses : without rows (hitsIn probes) = e.misses m s rows := without_hits hrows hhits hhit
    simp only [Bool.not_true, Bool.false_eq_true, if_false]
    rw [hmisses]
    refine Plan.wp.bind (h.wp_leadAndSubmit value ?_ hfits.lead hfits.accounts ?_ ?_)
    · exact hrows.sublist (List.filter_sublist.map _)
    · intro row hrow
      have hmiss : e.found m s row.key = none := by simpa using (List.mem_filter.1 hrow).2
      refine Steady.open_later hs₁ fun hcaching => ⟨hfits.miss row hrow hcaching, .inl ?_⟩
      exact hit_eq_none hcaching hmiss
    · intro writes s₂ hs₂ hwritten s' hs'
      have hs' := (h.promise target).drifts hs'
      refine hQ _ s' ((h.promise target).trans hs₁ ((h.promise target).trans hs₂ hs'))
        (.completes hright (Written.later h hwritten hs') (misses_subset rows) ?_)
      intro row hrow
      cases hfound : e.found m s row.key with
      | some r =>
        obtain ⟨rfl, hnone⟩ := hfits.hit row hrow r hfound
        refine .inr ⟨hhit row hrow _ hfound, ?_⟩
        intro _ htarget
        -- A hit is no target: nothing is kept for it.
        rw [hnone] at htarget
        cases htarget
      | none => exact .inl (List.mem_filter.2 ⟨hrow, by simp [hfound]⟩)

/-- A bulk run in which all routes of the rows lead to their values gives them their values. -/
theorem Steady.wp_bulk {addresses : List Address} (hb : e.bulkProvider? = some b)
    (hfits : e.Fits m target b value (rowsOf (Address.assignIds addresses)) s)
    {Q : List Resolution → σ → Prop}
    (hQ : ∀ writes s', (h.promise target).holds s s' →
      e.Written k m target value (rowsOf (Address.assignIds addresses)) writes s' →
      Q (fill (rowsOf (Address.assignIds addresses)).length writes) s') :
    (e.bulk addresses).wp e (h.promise target) Q s := by
  unfold bulk
  rw [hb]
  refine Plan.wp.bind (h.wp_bulkBy (nodup_index_rowsOf _) hfits ?_)
  intro writes s₁ hs₁ hwritten s' hs'
  have hs' := (h.promise target).drifts hs'
  exact hQ writes s' ((h.promise target).trans hs₁ hs') (Written.later h hwritten hs')

end Steady

end Geocoding.Engine
