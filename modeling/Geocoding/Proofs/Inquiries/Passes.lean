import Geocoding.Proofs.Bookkeeping
import Geocoding.Proofs.Inquiries

/-!
# Whom the parts of a bulk run ask

Every part of a bulk run has jobs that ask only some of the providers: the leading pass asks those before the bulk
provider, and the jobs that take rows up again ask it and those behind it. Here this is told of the jobs, and read
off the stories of the rows.
-/

namespace Geocoding.Engine

variable {α : Type} {e : Engine} {b : BulkProvider} {row : Row} {t t' u : List Event}

/-! ## Who asks whom -/

/-- A call that submits nothing, and asks only such providers. -/
def Call.Asks (P : Nat → Prop) : Call → Prop
  | .geocode position _ => P position
  | .submit _ _ => False
  | _ => True

/-- An event that submits nothing, and asks only such providers for such jobs. -/
def Event.Asking (P : Nat → Option Job → Prop) (event : Event) : Prop :=
  ∀ c, event.call? = some c → c.Asks (P · event.owner)

theorem Event.Aside.asking {P : Nat → Option Job → Prop} {event : Event} (h : event.Aside) : event.Asking P := by
  intro c hc
  obtain ⟨key, r, rfl⟩ := h c hc
  trivial

theorem Shows.asking {P : Nat → Option Job → Prop} {who : Option Job} {p : Task α} {o : Option α}
    (h : Shows who p u o) (hp : p.Only (Call.Asks (P · who))) : ∀ event ∈ u, event.Asking P := by
  intro event hevent c hc
  obtain ⟨c', hc', hasks⟩ := h.only hp event hevent
  rw [hc, Option.some.injEq] at hc'
  rw [hc', h.owner event hevent]
  exact hasks

theorem only_asks_lookup (P : Nat → Prop) (key : String) : (e.lookup key).Only (Call.Asks P) :=
  (e.only_lookup key).mono (by rintro _ rfl; trivial)

theorem only_asks_cascade {P : Nat → Prop} {a : Address} {first stop : Nat} {prior : Option String}
    (hP : ∀ position, first ≤ position → position < stop → P position) :
    (e.cascade a first stop prior).Only (Call.Asks P) := by
  apply (only_askAll a _ prior).mono
  rintro _ ⟨q, hq, rfl⟩
  obtain ⟨-, hfirst, hstop⟩ := e.mem_span hq
  exact hP q.2 hfirst hstop

theorem only_asks_resolve {P : Nat → Prop} {a : Address} {first : Nat} {prior : Option String}
    (hP : ∀ position, first ≤ position → P position) : (e.resolve a first prior).Only (Call.Asks P) := by
  intro fired
  cases fired with
  | true => trivial
  | false =>
    apply (only_asks_lookup P a.key).bind
    intro found
    match found with
    | .error error => trivial
    | .ok (some hit) => trivial
    | .ok none =>
      apply (only_asks_cascade fun position hfirst _ => hP position hfirst).bind
      intro outcome
      match outcome with
      | .error error => trivial
      | .ok r => exact ((e.only_keep a.key r).mono (by rintro _ rfl; trivial)).bind fun _ => trivial

/-- The providers before the bulk provider are asked by the leading pass. -/
def BulkProvider.leads (b : BulkProvider) (position : Nat) (who : Option Job) : Prop :=
  position < b.position ∧ ∃ row, who = some ⟨row, .leading b.position⟩

/-- The providers from a position on are asked by jobs that resolve a row from there. -/
def follows (first position : Nat) (who : Option Job) : Prop :=
  first ≤ position ∧ ∃ row prior, who = some ⟨row, .resolve first prior⟩

/-- The bulk provider has its place in the order. -/
structure BulkProvider.Placed (b : BulkProvider) (row : Row) (t : List Event) : Prop where
  /-- Those before it are asked by the leading pass, and that asks nobody else. -/
  leading : ∀ who position a, .started who (.geocode position a) ∈ t →
    (position < b.position ↔ ∃ j, who = some j ∧ j.stage = .leading b.position)
  /-- A row that it does not find when it is submitted is not asked of it again, but taken up behind it. -/
  declined : ∀ who position rows answers, .answered who (.submit position rows) (.ok answers) ∈ t →
    (answers.get? row.index.repr).any (!·.matched) = true →
      b.position ∉ asked t ∧ .begun ⟨row, .resolve (b.position + 1) (some b.name)⟩ ∈ t
  /-- A row that it does not answer when it is submitted is taken up from it on: it is asked first, unless the
  cache knows the row, or the lookup breaks down. -/
  unanswered : ∀ who position rows reply, .answered who (.submit position rows) reply ∈ t →
    (∀ answers, reply = .ok answers → answers.get? row.index.repr = none) →
      ∃ prior, .begun ⟨row, .resolve b.position prior⟩ ∈ t ∧
        (b.position ∈ asked t ∨
          (∃ key hit, .answered (some ⟨row, .resolve b.position prior⟩) (.check key) (.ok (some hit)) ∈ t) ∨
          ∃ key, .brokenDown (some ⟨row, .resolve b.position prior⟩) (.check key) ∈ t)

/-- A row that was not submitted has been asked about by the leading pass alone. -/
theorem placed_of_leads (row : Row) (h : ∀ event ∈ t, event.Asking b.leads) : b.Placed row t where
  leading who position a hevent :=
    have hleads : b.leads position who := h _ hevent (.geocode position a) rfl
    ⟨fun _ => hleads.2.elim fun _ hwho => ⟨_, hwho, rfl⟩, fun _ => hleads.1⟩
  declined _ position rows _ hevent := (h _ hevent (.submit position rows) rfl).elim
  unanswered _ position rows _ hevent := (h _ hevent (.submit position rows) rfl).elim

/-- A row that was submitted has been asked about before by the leading pass, and after that by the job that takes
it up again, if there is one. -/
theorem placed_of_follows {chunk : List Row} {reply : Except Error Answers} {first : Nat}
    (hfirst : b.position ≤ first) (h : ∀ event ∈ t, event.Asking b.leads)
    (h' : ∀ event ∈ t', event.Asking (follows first))
    (hdeclined : ∀ answers, reply = .ok answers → (answers.get? row.index.repr).any (!·.matched) = true →
      b.position < first ∧ .begun ⟨row, .resolve (b.position + 1) (some b.name)⟩ ∈ t')
    (hunanswered : (∀ answers, reply = .ok answers → answers.get? row.index.repr = none) →
      ∃ prior, .begun ⟨row, .resolve b.position prior⟩ ∈ t' ∧
        (b.position ∈ asked t' ∨
          (∃ key hit, .answered (some ⟨row, .resolve b.position prior⟩) (.check key) (.ok (some hit)) ∈ t') ∨
          ∃ key, .brokenDown (some ⟨row, .resolve b.position prior⟩) (.check key) ∈ t')) :
    b.Placed row (t ++ (submissionLog b.position chunk reply ++ t')) := by
  -- There is one submission in the story, and only one reply.
  have hreply : ∀ who position rows reply',
      .answered who (.submit position rows) reply' ∈ t ++ (submissionLog b.position chunk reply ++ t') →
        ∀ answers : Answers, reply' = .ok answers ↔ reply = .ok answers := by
    intro who position rows reply' hevent answers
    simp only [List.mem_append] at hevent
    rcases hevent with hevent | hevent | hevent
    · exact (h _ hevent (.submit position rows) rfl).elim
    · simp only [submissionLog, List.mem_cons, reduceCtorEq, false_or, List.not_mem_nil, or_false] at hevent
      cases hevent
      rfl
    · exact (h' _ hevent (.submit position rows) rfl).elim
  constructor
  case leading =>
    intro who position a hevent
    simp only [List.mem_append] at hevent
    rcases hevent with hevent | hevent | hevent
    · exact (placed_of_leads row h).leading who position a hevent
    · simp [submissionLog] at hevent
    · obtain ⟨hle, row', prior, rfl⟩ : follows first position who := h' _ hevent (.geocode position a) rfl
      refine ⟨fun hlt => by omega, ?_⟩
      rintro ⟨j, ⟨⟩, ⟨⟩⟩
  case declined =>
    intro who position rows answers hevent hany
    obtain ⟨hlt, hbegun⟩ := hdeclined answers ((hreply _ _ _ _ hevent answers).1 rfl) hany
    refine ⟨fun hasked => ?_, by simp [hbegun]⟩
    obtain ⟨who, a, hevent⟩ := mem_asked.1 hasked
    simp only [List.mem_append] at hevent
    rcases hevent with hevent | hevent | hevent
    · exact Nat.lt_irrefl _ (h _ hevent (.geocode b.position a) rfl : b.leads b.position who).1
    · simp [submissionLog] at hevent
    · have hfollows : follows first b.position who := h' _ hevent (.geocode b.position a) rfl
      have hle := hfollows.1
      omega
  case unanswered =>
    intro who position rows reply' hevent hnone
    obtain ⟨prior, hbegun, hrest⟩ := hunanswered fun answers hanswers =>
      hnone answers ((hreply _ _ _ _ hevent answers).2 hanswers)
    refine ⟨prior, by simp [hbegun], ?_⟩
    rcases hrest with hasked | ⟨key, hit, hknown⟩ | ⟨key, hbroken⟩
    · exact .inl (by simp [hasked])
    · exact .inr (.inl ⟨key, hit, by simp [hknown]⟩)
    · exact .inr (.inr ⟨key, by simp [hbroken]⟩)

/-! ## Results -/

section Results

variable {γ : Type}

theorem resultsOf_eq_singleton {ws : List (Row × γ)} (hrows : (ws.map Prod.fst).Nodup) {w : Row × γ} (hw : w ∈ ws) :
    resultsOf w.1 ws = [w.2] := by
  induction ws with
  | nil => cases hw
  | cons w' ws ih =>
    rw [List.map_cons, List.nodup_cons] at hrows
    rcases List.mem_cons.1 hw with rfl | hw
    · simpa [resultsOf] using resultsOf_eq_nil_iff.2 hrows.1
    · have hne : w'.1 ≠ w.1 := fun heq => hrows.1 (heq ▸ List.mem_map_of_mem hw)
      simpa [resultsOf, hne] using ih hrows.2 hw

/-- Results that are at most one for each row are about different rows. -/
theorem nodup_of_resultsOf {ws : List (Row × γ)} (h : ∀ row, (resultsOf row ws).length ≤ 1) :
    (ws.map Prod.fst).Nodup := by
  rw [List.nodup_iff_count_le_one]
  intro row
  refine le_trans (Eq.le ?_) (h row)
  simp [resultsOf, List.count, List.countP_eq_length_filter, List.filter_map, Function.comp_def, beq_eq_decide]

/-- The resolution that an outcome brings. -/
def brought : Option Outcome → Option Resolution
  | some (.ok found) => found
  | _ => none

theorem eq_of_brought {found : Option (Except Error Resolution)} {r : Resolution}
    (h : brought (found.map (·.map some)) = some r) : found = some (.ok r) := by
  match found with
  | none => cases h
  | some (.error _) => cases h
  | some (.ok _) =>
    cases h
    rfl

theorem resultsOf_resolved (row : Row) (results : List (Row × Outcome)) :
    resultsOf row (resolved results) = (resultsOf row results).filterMap fun outcome => brought (some outcome) := by
  induction results with
  | nil => rfl
  | cons w results ih =>
    obtain ⟨row', outcome⟩ := w
    simp only [resultsOf, resolved] at ih ⊢
    by_cases hrow : row' = row
    · cases outcome with
      | error _ => simpa [hrow, brought] using ih
      | ok found => cases found <;> simpa [hrow, brought] using ih
    · cases outcome with
      | error _ => simpa [hrow] using ih
      | ok found => cases found <;> simpa [hrow] using ih

theorem resultsOf_resolved_of {results : List (Row × Outcome)} {o : Option Outcome}
    (h : resultsOf row results = o.toList) : resultsOf row (resolved results) = (brought o).toList := by
  rw [resultsOf_resolved, h]
  cases o with
  | none => rfl
  | some outcome => cases hbrought : brought (some outcome) <;> simp [hbrought]

end Results

/-- The rows that are left are those that have no result. -/
theorem mem_without_iff {rows : List Row} {ws : List (Row × Resolution)} (hrows : (rows.map Row.index).Nodup)
    (hws : ∀ w ∈ ws, w.1 ∈ rows) : row ∈ without rows ws ↔ row ∈ rows ∧ row ∉ ws.map Prod.fst := by
  rw [without, List.mem_filter, Bool.not_eq_true', List.any_eq_false]
  refine and_congr_right fun hrow => ⟨?_, ?_⟩
  · intro h hin
    obtain ⟨w, hw, rfl⟩ := List.mem_map.1 hin
    exact h w hw (by simp)
  · intro h w hw heq
    exact h (List.mem_map.2 ⟨w, hw, eq_of_index_eq hrows (hws w hw) hrow (by simpa using heq)⟩)

/-- Whatever is asked of a single provider is asked about one of the rows. -/
def Covers (rows : List Row) (t : List Event) : Prop :=
  ∀ event ∈ t, ∀ position a, event.call? = some (.geocode position a) → ∃ row ∈ rows, event.concerns row = true

theorem Covers.append {rows : List Row} (h : Covers rows t) (h' : Covers rows t') : Covers rows (t ++ t') :=
  fun event hevent => (List.mem_append.1 hevent).elim (h event) (h' event)

theorem Covers.mono {rows rows' : List Row} (h : Covers rows t) (hrows : rows ⊆ rows') : Covers rows' t :=
  fun event hevent position a hcall => (h event hevent position a hcall).imp fun _ h => ⟨hrows h.1, h.2⟩

/-! ## Pools -/

/-- Behind its first event, a story has no cancellation if there is none at all. -/
theorem not_cancels_of_story {event : Event} {log : List Event} (hcancels : ∀ event ∈ t, event.cancels = false)
    (hstory : story row t = event :: log) : ∀ event ∈ log, event.cancels = false := fun event hevent =>
  hcancels event (List.mem_of_mem_filter (hstory ▸ List.mem_cons_of_mem _ hevent))

/-- Jobs of different rows are over: the story of each row is the log of its job, and what came of it is what the
job has brought. -/
structure Passed (e : Engine) (jobs : List Job) (rows : List Row) (t : List Event) (results : List (Row × Resolution)) :
    Prop where
  each : ∀ j ∈ jobs, ∃ log o, story j.row t = .begun j :: log ∧ Engine.Shows (some j) (e.task j) log o ∧
    resultsOf j.row results = (brought o).toList
  others : ∀ row ∉ rows, story row t = [] ∧ resultsOf row results = []
  rows_nodup : (results.map Prod.fst).Nodup
  covers : Covers rows t

theorem Passed.mem {jobs : List Job} {rows : List Row} {results : List (Row × Resolution)}
    (h : e.Passed jobs rows t results) : ∀ w ∈ results, w.1 ∈ rows := by
  intro w hw
  by_contra hnot
  exact resultsOf_eq_nil_iff.1 (h.others w.1 hnot).2 (List.mem_map_of_mem hw)

theorem AllShow.passed {jobs : List Job} {rows : List Row} {results : List (Row × Outcome)}
    (h : e.AllShow (jobs.map .inr) [] t results) (hrows : jobs.map Job.row = rows) :
    e.Passed jobs rows t (resolved results) := by
  subst hrows
  have heach : ∀ j ∈ jobs, ∃ log o, story j.row t = .begun j :: log ∧ Engine.Shows (some j) (e.task j) log o ∧
      resultsOf j.row (resolved results) = (brought o).toList := by
    intro j hj
    obtain ⟨log, o, hstory, hshows, hresults⟩ := h.of_job hj
    exact ⟨log, o, hstory, hshows, resultsOf_resolved_of hresults⟩
  have hothers : ∀ row ∉ jobs.map Job.row, story row t = [] ∧ resultsOf row (resolved results) = [] := by
    intro row hrow
    obtain ⟨hstory, hresults⟩ := h.of_other hrow
    exact ⟨hstory, resultsOf_resolved_of (o := none) hresults⟩
  refine ⟨heach, hothers, nodup_of_resultsOf fun row => ?_, fun event hevent _ _ _ => h.of_event event hevent⟩
  by_cases hrow : row ∈ jobs.map Job.row
  · obtain ⟨j, hj, rfl⟩ := List.mem_map.1 hrow
    obtain ⟨log, o, -, -, hresults⟩ := heach j hj
    rw [hresults]
    cases brought o <;> simp
  · simp [(hothers row hrow).2]

/-- What workers bring is what their jobs bring. -/
theorem Plan.Shows.finish {jobs : List Job} {rows : List Row} {ws : List (Row × Resolution)}
    (h : (Plan.finish jobs).Shows e t ws) (hrows : jobs.map Job.row = rows) (hnodup : rows.Nodup) :
    e.Passed jobs rows t ws := by
  obtain ⟨t₁, t₂, results, rfl, hpool, rfl, rfl⟩ := Plan.Shows.pool h (hrows ▸ hnodup)
  rw [List.append_nil]
  exact hpool.passed hrows

/-- Keeping results asks nobody about their rows, and tells nothing of other rows. -/
theorem keepAll_aside {ws : List (Row × Resolution)} (hws : (ws.map Prod.fst).Nodup)
    (h : (keepAll ws).Shows e t ()) :
    (∀ row, (∀ event ∈ story row t, event.Aside) ∧ (row ∉ ws.map Prod.fst → story row t = [])) ∧
      Covers (ws.map Prod.fst) t := by
  have hrows : (ws.map fun w => (⟨w.1, .keep w.2⟩ : Job)).map Job.row = ws.map Prod.fst := by
    rw [List.map_map]
    rfl
  obtain ⟨t₁, t₂, results, rfl, hpool, rfl, -⟩ := Plan.Shows.pool h (hrows ▸ hws)
  rw [List.append_nil]
  refine ⟨fun row => ?_, fun event hevent _ _ _ => hrows ▸ hpool.of_event event hevent⟩
  have hother : row ∉ ws.map Prod.fst → story row t₁ = [] := fun hrow => (hpool.of_other (hrows ▸ hrow)).1
  refine ⟨?_, hother⟩
  by_cases hrow : row ∈ ws.map Prod.fst
  · -- The story of a row that is kept is its job, which turns to nobody but the cache.
    obtain ⟨w, hw, rfl⟩ := List.mem_map.1 hrow
    obtain ⟨log, o, hstory, hshows, -⟩ := hpool.of_job (List.mem_map_of_mem hw)
    obtain ⟨o', hkeep, -⟩ := Shows.of_map (p := e.keep w.1.key w.2) hshows
    change story w.1 t₁ = _ at hstory
    rw [hstory]
    refine List.forall_mem_cons.2 ⟨?_, shows_keep hkeep⟩
    rintro c ⟨⟩
  · simp [hother hrow]

end Geocoding.Engine
