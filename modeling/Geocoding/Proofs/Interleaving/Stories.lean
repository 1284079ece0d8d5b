import Geocoding.Proofs.Bookkeeping.Notes

/-!
# The stories of rows

A run mingles what its jobs show, but what it shows about one row comes from one job after the other, so the
events about a row tell a story: the log of its first job to the end, then that of its next one. This holds
whatever calls are answered, and where they break down, as long as the token does not fire. The story of a row
can be read off the plan of the run.
-/

namespace Geocoding.Engine

variable {α β γ σ : Type}

/-- The call that an event is about. -/
def Event.call? : Event → Option Call
  | .begun _ => none
  | .started _ c | .answered _ c _ | .givenUp _ c | .brokenDown _ c => some c

/-- An event is about a row if a job of the row shows it, or if the run itself submits the row. -/
def Event.concerns (row : Row) (event : Event) : Bool :=
  match event.owner, event.call? with
  | some j, _ => j.row = row
  | none, some (.submit _ rows) => rows.any (·.id == row.index.repr)
  | none, _ => false

/-- What a run shows about a row, in order. -/
def story (row : Row) (t : List Event) : List Event :=
  t.filter (·.concerns row)

@[simp] theorem story_nil (row : Row) : story row [] = [] := rfl

@[simp] theorem story_append (row : Row) (t t' : List Event) : story row (t ++ t') = story row t ++ story row t' :=
  List.filter_append ..

/-- What a job shows is about its row, and about no other. -/
theorem story_of_owner {j : Job} {t : List Event} (h : ∀ event ∈ t, event.owner = some j) (row : Row) :
    story row t = if j.row = row then t else [] := by
  have hconcerns : ∀ event ∈ t, event.concerns row = decide (j.row = row) := fun event hevent => by
    simp [Event.concerns, h event hevent]
  unfold story
  rw [List.filter_congr hconcerns]
  by_cases hrow : j.row = row <;> simp [hrow]

theorem concerns_of_story {row : Row} {t : List Event} (h : story row t = t) :
    ∀ event ∈ t, event.concerns row = true :=
  List.filter_eq_self.1 h

/-- What a list of results has for a row. -/
def resultsOf (row : Row) (results : List (Row × γ)) : List γ :=
  (results.filter (·.1 = row)).map Prod.snd

@[simp] theorem resultsOf_nil (row : Row) : resultsOf row ([] : List (Row × γ)) = [] := rfl

@[simp] theorem resultsOf_append (row : Row) (results results' : List (Row × γ)) :
    resultsOf row (results ++ results') = resultsOf row results ++ resultsOf row results' := by
  simp [resultsOf]

@[simp] theorem mem_resultsOf {row : Row} {results : List (Row × γ)} {c : γ} :
    c ∈ resultsOf row results ↔ (row, c) ∈ results := by
  simp [resultsOf]

theorem resultsOf_eq_nil_iff {row : Row} {results : List (Row × γ)} :
    resultsOf row results = [] ↔ row ∉ results.map Prod.fst := by
  simp only [resultsOf, List.map_eq_nil_iff, List.filter_eq_nil_iff, List.mem_map, decide_eq_true_eq]
  exact ⟨fun h ⟨w, hw, hrow⟩ => h w hw hrow, fun h w hw hrow => h ⟨w, hw, hrow⟩⟩

/-! ## Tasks -/

/-- A call that was started shows its end: a reply, behind which things go on, or a breakdown. -/
def ShowsReply (who : Option Job) (c : Call) (next : collaborators.Reply c → List Event → Option α → Prop)
    (t : List Event) (o : Option α) : Prop :=
  (∃ reply t', t = .answered who c reply :: t' ∧ next reply t' o) ∨ t = [.brokenDown who c] ∧ o = none

/-- A task shows a log and comes to an outcome, or to none if one of its calls breaks down. -/
def Shows (who : Option Job) : Task α → List Event → Option α → Prop
  | .done a, t, o => t = [] ∧ o = some a
  | .look next, t, o => Shows who (next false) t o
  | .call c next, t, o => ∃ t', t = .started who c :: t' ∧
      ShowsReply who c (fun reply t o => Shows who (next reply) t o) t' o

/-- What is left of a task under way shows a log and comes to an outcome, or to none. -/
def Strand.Shows (who : Option Job) : Strand α → List Event → Option α → Prop
  | .ready p, t, o => Engine.Shows who p t o
  | .waiting c next, t, o => ShowsReply who c (fun reply t o => Engine.Shows who (next reply) t o) t o

theorem Shows.owner {who : Option Job} {p : Task α} {t : List Event} {o : Option α} (h : Shows who p t o) :
    ∀ event ∈ t, event.owner = who := by
  induction p generalizing t with
  | done a => simp [h.1]
  | look next ih => exact ih false h
  | call c next ih =>
    obtain ⟨t, rfl, ⟨reply, t, rfl, h⟩ | ⟨rfl, -⟩⟩ := h
    · simpa [Event.owner] using ih reply h
    · simp [Event.owner]

/-- A task that goes on with another one shows the log of the first, and then that of the second if the first
one comes to an outcome. -/
theorem Shows.bind {who : Option Job} {p : Task α} {f : α → Task β} {t : List Event} {o : Option β}
    (h : Shows who (p.bind f) t o) :
    (∃ t₁ a t₂, t = t₁ ++ t₂ ∧ Shows who p t₁ (some a) ∧ Shows who (f a) t₂ o) ∨ Shows who p t none ∧ o = none := by
  induction p generalizing t with
  | done a => exact .inl ⟨[], a, t, rfl, ⟨rfl, rfl⟩, h⟩
  | look next ih => exact ih false h
  | call c next ih =>
    obtain ⟨t, rfl, ⟨reply, t, rfl, h⟩ | ⟨rfl, ho⟩⟩ := h
    · obtain ⟨t₁, a, t₂, rfl, h₁, h₂⟩ | ⟨h, ho⟩ := ih reply h
      · exact .inl ⟨_, a, t₂, rfl, ⟨_, rfl, .inl ⟨reply, t₁, rfl, h₁⟩⟩, h₂⟩
      · exact .inr ⟨⟨_, rfl, .inl ⟨reply, t, rfl, h⟩⟩, ho⟩
    · exact .inr ⟨⟨_, rfl, .inr ⟨rfl, rfl⟩⟩, ho⟩

theorem Shows.of_looked {who : Option Job} {p : Task α} {t : List Event} {o : Option α}
    (h : Shows who (p.looked false) t o) : Shows who p t o := by
  cases p <;> exact h

/-- A guarded call is made. -/
theorem Shows.guarded {who : Option Job} {c : Call} {t : List Event} {o : Option (collaborators.Reply c)}
    (h : Shows who (Program.guarded collaborators c) t o) :
    (∃ reply, t = [.started who c, .answered who c reply] ∧ o = some reply) ∨
      t = [.started who c, .brokenDown who c] ∧ o = none := by
  obtain ⟨t, rfl, ⟨reply, t, rfl, rfl, ho⟩ | ⟨rfl, ho⟩⟩ := h
  · exact .inl ⟨reply, rfl, ho⟩
  · exact .inr ⟨rfl, ho⟩

section Strand

variable {k : Setting σ} {who : Option Job} {s s' : σ} {strand strand' : Strand α} {t t' : List Event}

theorem Strand.Step.owner (step : strand.Step k who s t strand' s') : ∀ event ∈ t, event.owner = who := by
  cases step <;> simp [Event.owner]

theorem Strand.Step.shows (hclear : ∀ s, k.world.fired s = false) {o : Option α}
    (step : strand.Step k who s t strand' s') (h : strand'.Shows who t' o) : strand.Shows who (t ++ t') o := by
  cases step with
  | look _ =>
    rw [hclear] at h
    exact h
  | start hp =>
    apply Shows.of_looked
    rw [hclear] at hp
    rw [hp]
    exact ⟨t', rfl, h⟩
  | finish _ => exact .inl ⟨_, t', rfl, h⟩
  | giveUp hfired =>
    rw [hclear] at hfired
    cases hfired

end Strand

/-! ## Pools -/

/-- The row of a job, under way or not begun. -/
def rowOf : Worker ⊕ Job → Row
  | .inl w => w.job.row
  | .inr j => j.row

/-- A job shows a log and comes to an outcome, or to none, from where it stands. -/
def ItemShows (e : Engine) : Worker ⊕ Job → List Event → Option Outcome → Prop
  | .inl w, t, o => w.strand.Shows (some w.job) t o
  | .inr j, t, o => ∃ log, t = .begun j :: log ∧ Shows (some j) (e.task j) log o

/-- Jobs of different rows show what they show to their rows, and bring their outcomes on top of what there was.
Nothing is shown to other rows. -/
structure AllShow (e : Engine) (items : List (Worker ⊕ Job)) (before : List (Row × Outcome)) (t : List Event)
    (results : List (Row × Outcome)) : Prop where
  each : ∀ item ∈ items, ∃ o, e.ItemShows item (story (rowOf item) t) o ∧
    resultsOf (rowOf item) results = resultsOf (rowOf item) before ++ o.toList
  others : ∀ row, row ∉ items.map rowOf → story row t = [] ∧ resultsOf row results = resultsOf row before
  owned : ∀ event ∈ t, ∃ row ∈ items.map rowOf, event.concerns row = true

section Pool

variable {e : Engine} {items items' : List (Worker ⊕ Job)} {item item' : Worker ⊕ Job}
  {before results : List (Row × Outcome)} {t u : List Event}

/-- One of the jobs has shown something more. -/
theorem AllShow.extend (h : e.AllShow (items ++ item' :: items') before t results)
    (hrows : ((items ++ item :: items').map rowOf).Nodup) (hrow : rowOf item' = rowOf item)
    (hu : ∀ row, story row u = if rowOf item = row then u else [])
    (hitem : ∀ t o, e.ItemShows item' t o → e.ItemShows item (u ++ t) o) :
    e.AllShow (items ++ item :: items') before (u ++ t) results := by
  have hne : ∀ other ∈ items ++ items', rowOf item ≠ rowOf other := by
    intro other hother heq
    rw [List.map_append, List.map_cons, List.nodup_middle, List.nodup_cons, ← List.map_append] at hrows
    exact hrows.1 (heq ▸ List.mem_map_of_mem hother)
  constructor
  case each =>
    intro other hother
    simp only [story_append, hu]
    rcases List.mem_append.1 hother with hother | hother
    · simpa [hne other (by simp [hother])] using h.each other (by simp [hother])
    rcases List.mem_cons.1 hother with rfl | hother
    · obtain ⟨o, hshows, hresults⟩ := h.each item' (by simp)
      rw [hrow] at hshows hresults
      exact ⟨o, by simpa using hitem _ o hshows, hresults⟩
    · simpa [hne other (by simp [hother])] using h.each other (by simp [hother])
  case others =>
    intro row hother
    have hapart : rowOf item ≠ row := fun heq => hother (by simp [heq])
    simpa [hu, hapart] using h.others row (by simpa [hrow] using hother)
  case owned =>
    intro event hevent
    rcases List.mem_append.1 hevent with hevent | hevent
    · exact ⟨rowOf item, by simp, concerns_of_story (by simp [hu]) event hevent⟩
    · simpa [hrow] using h.owned event hevent

/-- One of the jobs is over, and has brought its outcome if it came to one. -/
theorem AllShow.leave {o : Option Outcome}
    (h : e.AllShow (items ++ items') (before ++ o.toList.map (rowOf item, ·)) t results)
    (hrows : ((items ++ item :: items').map rowOf).Nodup)
    (hu : ∀ row, story row u = if rowOf item = row then u else []) (hitem : e.ItemShows item u o) :
    e.AllShow (items ++ item :: items') before (u ++ t) results := by
  have hgone : rowOf item ∉ (items ++ items').map rowOf := by
    rw [List.map_append, List.map_cons, List.nodup_middle, List.nodup_cons, ← List.map_append] at hrows
    exact hrows.1
  have hbrought : ∀ row, resultsOf row (before ++ o.toList.map (rowOf item, ·)) =
      resultsOf row before ++ if rowOf item = row then o.toList else [] := by
    intro row
    cases o <;> by_cases heq : rowOf item = row <;> simp [resultsOf, heq]
  have hne : ∀ other ∈ items ++ items', rowOf item ≠ rowOf other := fun other hother heq =>
    hgone (heq ▸ List.mem_map_of_mem hother)
  constructor
  case each =>
    intro other hother
    simp only [story_append, hu]
    rcases List.mem_append.1 hother with hother | hother
    · simpa [hbrought, hne other (by simp [hother])] using h.each other (by simp [hother])
    rcases List.mem_cons.1 hother with rfl | hother
    · obtain ⟨hstory, hresults⟩ := h.others _ hgone
      exact ⟨o, by simpa [hstory] using hitem, by simpa [hbrought] using hresults⟩
    · simpa [hbrought, hne other (by simp [hother])] using h.each other (by simp [hother])
  case others =>
    intro row hother
    have hapart : rowOf item ≠ row := fun heq => hother (by simp [heq])
    have hnone : row ∉ (items ++ items').map rowOf := fun hin => hother (by
      simp only [List.map_append, List.mem_append, List.map_cons, List.mem_cons] at hin ⊢
      exact hin.imp id .inr)
    simpa [hu, hapart, hbrought] using h.others row hnone
  case owned =>
    intro event hevent
    rcases List.mem_append.1 hevent with hevent | hevent
    · exact ⟨rowOf item, by simp, concerns_of_story (by simp [hu]) event hevent⟩
    · obtain ⟨row, hrow, hconcerns⟩ := h.owned event hevent
      refine ⟨row, ?_, hconcerns⟩
      simp only [List.map_append, List.mem_append, List.map_cons, List.mem_cons] at hrow ⊢
      exact hrow.imp id .inr

/-- What is left of a pool shows a log and brings results. -/
def Pool.Shows (e : Engine) (pool : Pool) (t : List Event) (results : List (Row × Outcome)) : Prop :=
  (pool.items.map rowOf).Nodup → e.AllShow pool.items pool.results t results

theorem Pool.items_append (crew : Crew) (jobs : List Job) (ws ws' : List Worker) (rs : List (Row × Outcome)) :
    Pool.items ⟨crew, jobs, ws ++ ws', rs⟩ = ws.map .inl ++ (ws'.map .inl ++ jobs.map .inr) := by
  simp [Pool.items]

theorem Pool.Step.shows {k : Setting σ} {s s' : σ} (hclear : ∀ s, k.world.fired s = false) {pool pool' : Pool}
    (step : pool.Step e k s u pool' s') (h : pool'.Shows e t results) : pool.Shows e (u ++ t) results := by
  intro hrows
  cases step with
  | @begin crew j jobs ws rs _ _ _ =>
    have hitems : Pool.items ⟨crew, j :: jobs, ws, rs⟩ = ws.map .inl ++ .inr j :: jobs.map .inr := rfl
    rw [Pool.Shows, Pool.items_append] at h
    rw [hitems] at hrows ⊢
    exact (h (by simpa [rowOf] using hrows)).extend hrows rfl
      (story_of_owner (j := j) (by simp [Event.owner])) fun t o hshows => ⟨t, rfl, hshows⟩
  | close hfired =>
    rw [hclear] at hfired
    cases hfired
  | work hstep =>
    rw [Pool.Shows, Pool.items_append] at h
    rw [Pool.items_append] at hrows ⊢
    exact (h (by simpa [rowOf] using hrows)).extend hrows rfl (story_of_owner hstep.owner)
      fun t o hshows => hstep.shows hclear hshows
  | @leave _ _ _ _ j outcome _ _ =>
    rw [Pool.Shows, Pool.items_append] at h
    rw [Pool.items_append] at hrows ⊢
    have hrest := h (hrows.sublist (by simp))
    exact AllShow.leave (o := some outcome) hrest hrows (by simp) ⟨rfl, rfl⟩
  | @lose _ _ _ j _ _ _ _ _ _ =>
    rw [Pool.Shows, Pool.items_append] at h
    rw [Pool.items_append] at hrows ⊢
    have hrest := h (hrows.sublist (by simp))
    exact AllShow.leave (o := none) (by simpa using hrest) hrows
      (story_of_owner (j := j) (by simp [Event.owner])) (.inr ⟨rfl, rfl⟩)

/-- Of every row that a pool has a job for, the story is that of its job. -/
theorem AllShow.of_job {jobs : List Job} (h : e.AllShow (jobs.map .inr) [] t results) {j : Job} (hj : j ∈ jobs) :
    ∃ log o, story j.row t = .begun j :: log ∧ Shows (some j) (e.task j) log o ∧
      resultsOf j.row results = o.toList := by
  obtain ⟨o, ⟨log, hstory, hshows⟩, hresults⟩ := h.each (.inr j) (List.mem_map_of_mem hj)
  exact ⟨log, o, hstory, hshows, hresults⟩

theorem AllShow.of_other {jobs : List Job} (h : e.AllShow (jobs.map .inr) [] t results) {row : Row}
    (hrow : row ∉ jobs.map Job.row) : story row t = [] ∧ resultsOf row results = [] :=
  h.others row (by simpa [rowOf, Function.comp_def] using hrow)

theorem AllShow.of_event {jobs : List Job} (h : e.AllShow (jobs.map .inr) [] t results) :
    ∀ event ∈ t, ∃ row ∈ jobs.map Job.row, event.concerns row = true := by
  simpa [rowOf, Function.comp_def] using h.owned

end Pool

/-! ## Plans -/

/-- `Shows` for plans. A plan breaks down with any of its own calls. -/
def Plan.Shows (e : Engine) : Plan α → List Event → α → Prop
  | .done a', t, a => t = [] ∧ a' = a
  | .look next, t, a => Shows e (next false) t a
  | .call c next, t, a => ∃ reply t', t = .started none c :: .answered none c reply :: t' ∧ Shows e (next reply) t' a
  | .pool crew jobs next, t, a => ∃ t₁ t₂ results, t = t₁ ++ t₂ ∧
      Pool.Shows e { crew, pending := jobs } t₁ results ∧ Shows e (next results) t₂ a

theorem Plan.Shows.of_looked {e : Engine} {p : Plan α} {t : List Event} {a : α} (h : (p.looked false).Shows e t a) :
    p.Shows e t a := by
  cases p <;> exact h

/-- What is left of a run shows a log and comes to an outcome. -/
def Config.Shows (e : Engine) : Config α → List Event → α → Prop
  | .ready p, t, a => p.Shows e t a
  | .waiting c next, t, a => ∃ reply t', t = .answered none c reply :: t' ∧ (next reply).Shows e t' a
  | .pool P next, t, a => ∃ t₁ t₂ results, t = t₁ ++ t₂ ∧ P.Shows e t₁ results ∧ (next results).Shows e t₂ a
  | .broken, _, _ => False

section Plan

variable {e : Engine} {k : Setting σ} {s s' : σ} {t t' : List Event}

theorem Config.Step.shows (hclear : ∀ s, k.world.fired s = false) {c c' : Config α} {a : α}
    (step : Config.Step e k c s t c' s') (h : c'.Shows e t' a) : c.Shows e (t ++ t') a := by
  cases step with
  | drift _ => exact h
  | look _ =>
    rw [hclear] at h
    exact h
  | start hp =>
    obtain ⟨reply, t₁, rfl, h⟩ := h
    apply Plan.Shows.of_looked
    rw [hclear] at hp
    rw [hp]
    exact ⟨reply, t₁, rfl, h⟩
  | finish _ => exact ⟨_, t', rfl, h⟩
  | giveUp hfired =>
    rw [hclear] at hfired
    cases hfired
  | enter => exact h
  | work hstep =>
    obtain ⟨t₁, t₂, results, rfl, hpool, h⟩ := h
    exact ⟨t ++ t₁, t₂, results, by simp, hstep.shows hclear hpool, h⟩
  | leave => exact ⟨[], t', _, rfl, fun _ => ⟨by simp [Pool.items], by simp, by simp⟩, h⟩
  | breakDown _ => exact h.elim
  | collapse _ => exact h.elim

theorem Config.Steps.shows (hclear : ∀ s, k.world.fired s = false) {c c' : Config α} {a : α}
    (steps : Config.Steps e k c s t c' s') (h : c'.Shows e t' a) : c.Shows e (t ++ t') a := by
  induction steps with
  | refl => exact h
  | head step _ ih =>
    rw [List.append_assoc]
    exact step.shows hclear (ih h)

/-- Unless the token fires, a run that comes to its end shows a log of its plan. -/
theorem Plan.Executes.shows (hclear : ∀ s, k.world.fired s = false) {p : Plan α} {a : α}
    (run : p.Executes e k s t a s') : p.Shows e t a := by
  have h : Config.Shows e (.ready p) (t ++ []) a := Config.Steps.shows hclear run ⟨rfl, rfl⟩
  rwa [List.append_nil] at h

theorem Plan.Shows.bind {p : Plan α} {f : α → Plan β} {b : β} (h : (p.bind f).Shows e t b) :
    ∃ t₁ a t₂, t = t₁ ++ t₂ ∧ p.Shows e t₁ a ∧ (f a).Shows e t₂ b := by
  induction p generalizing t with
  | done a => exact ⟨[], a, t, rfl, ⟨rfl, rfl⟩, h⟩
  | look next ih => exact ih false h
  | call c next ih =>
    obtain ⟨reply, t', rfl, h⟩ := h
    obtain ⟨t₁, a, t₂, rfl, h₁, h₂⟩ := ih reply h
    exact ⟨_, a, t₂, rfl, ⟨reply, t₁, rfl, h₁⟩, h₂⟩
  | pool crew jobs next ih =>
    obtain ⟨t₀, t', results, rfl, hpool, h⟩ := h
    obtain ⟨t₁, a, t₂, rfl, h₁, h₂⟩ := ih results h
    exact ⟨t₀ ++ t₁, a, t₂, by simp, ⟨t₀, t₁, results, rfl, hpool, h₁⟩, h₂⟩

theorem Plan.Shows.ofTask {p : Task α} {a : α} (h : (Plan.ofTask p).Shows e t a) :
    Engine.Shows none p t (some a) := by
  induction p generalizing t with
  | done a' => exact ⟨h.1, by rw [h.2]⟩
  | look next ih => exact ih false h
  | call c next ih =>
    obtain ⟨reply, t', rfl, h⟩ := h
    exact ⟨_, rfl, .inl ⟨reply, t', rfl, ih reply h⟩⟩

/-- What a run shows of replies, calls have given. -/
theorem Config.Steps.of_replies {P : Event → Prop}
    (hreply : ∀ {who c reply s s'}, k.world.finish c s = (some reply, s') → P (.answered who c reply))
    (hother : ∀ event, (∀ who c reply, event ≠ .answered who c reply) → P event) {c c' : Config α}
    (steps : Config.Steps e k c s t c' s') : ∀ event ∈ t, P event := by
  have hlone {event : Event} (h : ∀ who c reply, event ≠ .answered who c reply) : ∀ other ∈ [event], P other :=
    List.forall_mem_singleton.2 (hother event h)
  have hstrand {who : Option Job} {strand strand' : Strand Outcome} {s s' : σ} {t : List Event}
      (step : strand.Step k who s t strand' s') : ∀ event ∈ t, P event := by
    cases step with
    | look _ => simp
    | finish h => exact List.forall_mem_singleton.2 (hreply h)
    | _ => exact hlone (by simp)
  induction steps with
  | refl => simp
  | head step _ ih =>
    refine List.forall_mem_append.2 ⟨?_, ih⟩
    cases step with
    | finish h => exact List.forall_mem_singleton.2 (hreply h)
    | work h =>
      cases h with
      | work h => exact hstrand h
      | begin _ _ => exact hlone (by simp)
      | lose _ => exact hlone (by simp)
      | _ => simp
    | start _ => exact hlone (by simp)
    | giveUp _ => exact hlone (by simp)
    | breakDown _ => exact hlone (by simp)
    | collapse _ => exact hlone (by simp)
    | _ => simp

/-- The jobs of a pool have a row each, so what a pool shows is what they show. -/
theorem Plan.Shows.pool {crew : Crew} {jobs : List Job} {next : List (Row × Outcome) → Plan α} {a : α}
    (h : (Plan.pool crew jobs next).Shows e t a) (hrows : (jobs.map Job.row).Nodup) :
    ∃ t₁ t₂ results, t = t₁ ++ t₂ ∧ e.AllShow (jobs.map .inr) [] t₁ results ∧ (next results).Shows e t₂ a := by
  obtain ⟨t₁, t₂, results, rfl, hpool, h⟩ := h
  exact ⟨t₁, t₂, results, rfl, hpool (by simpa [Pool.items, rowOf, Function.comp_def] using hrows), h⟩

end Plan

end Geocoding.Engine
