import Geocoding.Proofs.Interleaving.Wp

/-!
# Runs come to an end

Two facts that keep statements about all orders of steps from being empty. To run a plan in order is one of
its runs; and a run that meets its weakest precondition does not get stuck: whatever it has done so far, it
can be brought to its end.
-/

namespace Geocoding.Engine

variable {α σ : Type} {e : Engine} {k : Setting σ} {who : Option Job}

/-! ## Tasks -/

/-- Steps of a task one after the other. -/
inductive Strand.Steps (k : Setting σ) (who : Option Job) :
    Strand α → σ → List Event → Strand α → σ → Prop where
  | refl {strand : Strand α} {s : σ} : Steps k who strand s [] strand s
  | head {strand strand' strand'' : Strand α} {s s' s'' : σ} {t t' : List Event}
      (h : Strand.Step k who strand s t strand' s') (rest : Steps k who strand' s' t' strand'' s'') :
      Steps k who strand s (t ++ t') strand'' s''

theorem Strand.Steps.single {strand strand' : Strand α} {s s' : σ} {t : List Event}
    (h : Strand.Step k who strand s t strand' s') : Strand.Steps k who strand s t strand' s' := by
  simpa using Strand.Steps.head h .refl

theorem Strand.Steps.trans {strand strand' strand'' : Strand α} {s s' s'' : σ} {t t' : List Event}
    (h : Strand.Steps k who strand s t strand' s') (h' : Strand.Steps k who strand' s' t' strand'' s'') :
    Strand.Steps k who strand s (t ++ t') strand'' s'' := by
  induction h with
  | refl => exact h'
  | head step _ ih =>
    rw [List.append_assoc]
    exact .head step (ih h')

/-- A task has been run from where it stands: it has come to its outcome, or to a call that breaks down. -/
def Strand.RunsTo (k : Setting σ) (who : Option Job) (strand : Strand α) (s : σ) :
    Option α × σ → Prop
  | (some a, s') => ∃ t, Steps k who strand s t (.ready (.done a)) s'
  | (none, s') => ∃ t c next s₁, Steps k who strand s t (.waiting c next) s₁ ∧
      k.world.finish c s₁ = (none, s')

theorem Strand.RunsTo.head {strand strand' : Strand α} {s s' : σ} {t : List Event} {r : Option α × σ}
    (step : Strand.Step k who strand s t strand' s') (h : strand'.RunsTo k who s' r) :
    strand.RunsTo k who s r := by
  obtain ⟨_ | a, s''⟩ := r
  · obtain ⟨t', c, next, s₁, steps, hnone⟩ := h
    exact ⟨t ++ t', c, next, s₁, .head step steps, hnone⟩
  · obtain ⟨t', steps⟩ := h
    exact ⟨t ++ t', .head step steps⟩

/-- From a call on that has been started, a task runs as from the call. -/
theorem Strand.runsTo_waiting {c : Call} {next : collaborators.Reply c → Task α} {s : σ}
    (h : ∀ reply s, (Strand.ready (next reply)).RunsTo k who s ((next reply).run k.world s)) :
    (Strand.waiting c next).RunsTo k who (k.world.start c s).2 ((Program.call c next).run k.world s) := by
  unfold Program.run World.answer
  split
  next reply s' hfinish => exact (h reply s').head (.finish hfinish)
  next s' hfinish => exact ⟨[], c, next, _, .refl, hfinish⟩

/-- To run a task is one way to take its steps. The second part is about a call that the look before it
has started already. -/
theorem Strand.runsTo (who : Option Job) (p : Task α) :
    ∀ s, (Strand.ready p).RunsTo k who s (p.run k.world s) ∧
      ∀ c next, p = .call c next →
        (Strand.waiting c next).RunsTo k who (k.world.start c s).2 (p.run k.world s) := by
  induction p with
  | done a =>
    intro s
    exact ⟨⟨[], .refl⟩, by rintro c next ⟨⟩⟩
  | look next ih =>
    intro s
    refine ⟨?_, by rintro c next ⟨⟩⟩
    unfold Program.run
    cases hcall : (next (k.world.fired s)).isCall with
    | false => exact (ih _ s).1.head (.look hcall)
    | true =>
      cases hnext : next (k.world.fired s) with
      | call c next' =>
        -- The look starts the call, so the rest of the run is that of a call which waits.
        have hwaiting := (ih _ s).2 c next' hnext
        rw [hnext] at hwaiting
        exact hwaiting.head (.start hnext)
      | _ => simp [hnext, Program.isCall] at hcall
  | call c next ih =>
    intro s
    have hwaiting := Strand.runsTo_waiting (s := s) fun reply s => (ih reply s).1
    refine ⟨hwaiting.head (.start rfl), ?_⟩
    intro c' next' h
    cases h
    exact hwaiting

/-! ## Pools -/

theorem Strand.Steps.inPool {strand strand' : Strand Outcome} {j : Job} {s s' : σ} {t : List Event}
    (steps : Strand.Steps k (some j) strand s t strand' s') {crew : Crew} {jobs : List Job}
    {ws ws' : List Worker} {rs : List (Row × Outcome)} {next : List (Row × Outcome) → Plan α} :
    Config.Steps e k (.pool ⟨crew, jobs, ws ++ ⟨j, strand⟩ :: ws', rs⟩ next) s t
      (.pool ⟨crew, jobs, ws ++ ⟨j, strand'⟩ :: ws', rs⟩ next) s' := by
  induction steps with
  | refl => exact .refl
  | head step _ ih => exact .head (.work (.work step)) ih

/-- A job under way that is run to its end leaves the pool with its outcome, or is lost if a call breaks
down. -/
theorem Strand.RunsTo.inPool {strand : Strand Outcome} {j : Job} {s : σ} {r : Option Outcome × σ}
    (h : strand.RunsTo k (some j) s r) {crew : Crew} (hcrew : crew = .workers ∨ r.1 ≠ none)
    (jobs : List Job) (ws ws' : List Worker) (rs : List (Row × Outcome))
    (next : List (Row × Outcome) → Plan α) :
    ∃ t, Config.Steps e k (.pool ⟨crew, jobs, ws ++ ⟨j, strand⟩ :: ws', rs⟩ next) s t
      (.pool ⟨crew, jobs, ws ++ ws', rs ++ (r.1.map fun outcome => (j.row, outcome)).toList⟩ next) r.2 := by
  obtain ⟨_ | outcome, s'⟩ := r
  · obtain rfl : crew = .workers := hcrew.resolve_right fun h => h rfl
    obtain ⟨t, c, next', s₁, steps, hnone⟩ := h
    refine ⟨t ++ [.brokenDown (some j) c], steps.inPool.trans ?_⟩
    simpa using Config.Steps.single (.work (.lose hnone))
  · obtain ⟨t, steps⟩ := h
    exact ⟨t ++ [], steps.inPool.trans (Config.Steps.single (.work .leave))⟩

/-- To do the jobs of a pool one after the other is one way to do them. -/
theorem Plan.runJobs_steps {crew : Crew} {jobs : List Job} (rs : List (Row × Outcome))
    (next : List (Row × Outcome) → Plan α) {results : List (Row × Outcome)} {s s' : σ}
    (h : Plan.runJobs e k.world crew jobs s = (some results, s')) :
    ∃ t, Config.Steps e k (.pool ⟨crew, jobs, [], rs⟩ next) s t
      (.pool ⟨crew, [], [], rs ++ results⟩ next) s' := by
  induction jobs generalizing s rs results with
  | nil =>
    simp only [Plan.runJobs, Prod.mk.injEq, Option.some.injEq] at h
    obtain ⟨rfl, rfl⟩ := h
    exact ⟨[], by simpa using Config.Steps.refl⟩
  | cons j jobs ih =>
    unfold Plan.runJobs at h
    by_cases hstop : crew = .workers ∧ k.world.fired s = true
    · rw [if_pos hstop] at h
      simp only [Prod.mk.injEq, Option.some.injEq] at h
      obtain ⟨rfl, rfl⟩ := h
      obtain ⟨rfl, hfired⟩ := hstop
      exact ⟨[], by simpa using Config.Steps.single (.work (.close hfired))⟩
    · rw [if_neg hstop] at h
      -- Nothing is under way, so there is room for the first job, and it is run to its end at once.
      have hbegin : Config.Step e k (.pool ⟨crew, j :: jobs, [], rs⟩ next) s [.begun j]
          (.pool ⟨crew, jobs, [] ++ ⟨j, .ready (e.task j)⟩ :: [], rs⟩ next) s :=
        .work (.begin e.concurrency_pos fun hcrew => by simpa [hcrew] using hstop)
      have hruns := (Strand.runsTo (k := k) (some j) (e.task j) s).1
      rcases hrun : (e.task j).run k.world s with ⟨_ | outcome, s₁⟩
      · rw [hrun] at h hruns
        -- Workers lose a job that breaks down and go on; anyone else would have broken down as well.
        cases crew with
        | itself => cases h
        | workers =>
          obtain ⟨t, steps⟩ := hruns.inPool (.inl rfl) jobs [] [] rs next
          obtain ⟨t', steps'⟩ := ih rs h
          exact ⟨_, .head hbegin (steps.trans (by simpa using steps'))⟩
      · rw [hrun] at h hruns
        obtain ⟨t, steps⟩ := hruns.inPool (.inr (by simp)) jobs [] [] rs next
        rcases hrest : Plan.runJobs e k.world crew jobs s₁ with ⟨_ | later, s₂⟩
        · simp [hrest] at h
        · simp only [hrest, Option.map_some, Prod.mk.injEq, Option.some.injEq] at h
          obtain ⟨rfl, rfl⟩ := h
          obtain ⟨t', steps'⟩ := ih (rs ++ [(j.row, outcome)]) hrest
          exact ⟨_, .head hbegin (steps.trans (by simpa using steps'))⟩

/-! ## Plans -/

/-- To run a plan in order is one of its runs. -/
theorem Plan.executes_of_run (p : Plan α) :
    ∀ {a s s'}, p.run e k.world s = (some a, s') →
      (∃ t, p.Executes e k s t a s') ∧
      ∀ c next, p = .call c next →
        ∃ t, Config.Steps e k (.waiting c next) (k.world.start c s).2 t (.ready (.done a)) s' := by
  induction p with
  | done a =>
    intro a' s s' h
    simp only [run, Prod.mk.injEq, Option.some.injEq] at h
    obtain ⟨rfl, rfl⟩ := h
    exact ⟨⟨[], .refl⟩, by rintro c next ⟨⟩⟩
  | look next ih =>
    intro a s s' h
    refine ⟨?_, by rintro c next ⟨⟩⟩
    unfold run at h
    cases hcall : (next (k.world.fired s)).isCall with
    | false =>
      obtain ⟨t, steps⟩ := (ih _ h).1
      exact ⟨_, .head (.look hcall) steps⟩
    | true =>
      cases hnext : next (k.world.fired s) with
      | call c next' =>
        obtain ⟨t, steps⟩ := (ih _ h).2 c next' hnext
        exact ⟨_, .head (.start hnext) steps⟩
      | _ => simp [hnext, isCall] at hcall
  | call c next ih =>
    intro a s s' h
    have hwaiting : ∃ t, Config.Steps e k (.waiting c next) (k.world.start c s).2 t (.ready (.done a)) s' := by
      unfold run World.answer at h
      split at h
      next reply s₁ hfinish =>
        obtain ⟨t, steps⟩ := (ih reply h).1
        exact ⟨_, .head (.finish hfinish) steps⟩
      next => cases h
    obtain ⟨t, steps⟩ := hwaiting
    refine ⟨⟨_, .head (.start rfl) steps⟩, ?_⟩
    intro c' next' h'
    cases h'
    exact ⟨t, steps⟩
  | pool crew jobs next ih =>
    intro a s s' h
    refine ⟨?_, by rintro c next ⟨⟩⟩
    unfold run at h
    split at h
    next results s₁ hjobs =>
      obtain ⟨t, steps⟩ := Plan.runJobs_steps [] next hjobs
      obtain ⟨t', steps'⟩ := (ih results h).1
      exact ⟨_, .head .enter (steps.trans (.head .leave steps'))⟩
    next => cases h

/-! ## Where nothing breaks down -/

section Wp

variable {R : Promise k}

/-- A task under way can be brought to its end. -/
theorem Strand.wp.runsTo (who : Option Job) {strand : Strand α} {Q : α → σ → Prop} {s : σ}
    (h : strand.wp R Q s) :
    ∃ a s', strand.RunsTo k who s (some a, s') ∧ R.holds s s' := by
  cases strand with
  | ready p =>
    obtain ⟨a, s', hrun, hs, -⟩ := Engine.wp.run h
    exact ⟨a, s', hrun ▸ (Strand.runsTo who p s).1, hs⟩
  | waiting c next =>
    obtain ⟨⟨reply, s₁, hfinish, hs₁, hnext⟩, -⟩ := h s (R.refl s)
    obtain ⟨a, s', hrun, hs, -⟩ := Engine.wp.run hnext
    exact ⟨a, s', (hrun ▸ (Strand.runsTo who (next reply) s₁).1).head (.finish hfinish), R.trans hs₁ hs⟩

theorem wp.runJobs (crew : Crew) {spec : Job → Outcome → σ → Prop} {jobs : List Job} {s : σ}
    (h : ∀ j ∈ jobs, wp R (spec j) (e.task j) s) :
    ∃ results s', Plan.runJobs e k.world crew jobs s = (some results, s') := by
  induction jobs generalizing s with
  | nil => exact ⟨[], s, rfl⟩
  | cons j jobs ih =>
    unfold Plan.runJobs
    split
    · exact ⟨[], s, rfl⟩
    · obtain ⟨outcome, s₁, hrun, hs₁, -⟩ := (h j List.mem_cons_self).run
      obtain ⟨results, s', hrest⟩ := ih fun i hi => (h i (List.mem_cons_of_mem _ hi)).later hs₁
      exact ⟨(j.row, outcome) :: results, s', by simp [hrun, hrest]⟩

/-- The jobs under way can be brought to their ends. -/
theorem Pool.Good.working_steps {spec : Job → Outcome → σ → Prop} {all jobs : List Job} {crew : Crew}
    {ws : List Worker} {rs : List (Row × Outcome)} {s : σ} (h : Pool.Good e R all spec ⟨crew, jobs, ws, rs⟩ s)
    (next : List (Row × Outcome) → Plan α) :
    ∃ t rs' s', Config.Steps e k (.pool ⟨crew, jobs, ws, rs⟩ next) s t
      (.pool ⟨crew, jobs, [], rs'⟩ next) s' := by
  -- Of the pool only the jobs under way matter here, each with its own precondition, which the steps of
  -- the others leave intact.
  have hworking := h.working
  clear h
  induction ws generalizing rs s with
  | nil => exact ⟨[], rs, s, .refl⟩
  | cons w ws ih =>
    obtain ⟨outcome, s₁, hruns, hs₁⟩ := Strand.wp.runsTo (some w.job) (hworking w List.mem_cons_self)
    obtain ⟨t, steps⟩ := hruns.inPool (e := e) (.inr (by simp)) jobs [] ws rs next
    obtain ⟨t', rs', s', steps'⟩ := @ih (rs ++ [(w.job.row, outcome)]) _ fun w hw =>
      (hworking w (List.mem_cons_of_mem _ hw)).later hs₁
    exact ⟨t ++ t', rs', s', steps.trans steps'⟩

variable {Q : α → σ → Prop}

/-- The jobs of a pool that are still to be done can be done, and the run goes on behind them. -/
theorem Config.wp.pool_steps {crew : Crew} {jobs : List Job} {rs : List (Row × Outcome)}
    {next : List (Row × Outcome) → Plan α} {s : σ} (h : (Config.pool ⟨crew, jobs, [], rs⟩ next).wp e R Q s) :
    ∃ t results s', Config.Steps e k (.pool ⟨crew, jobs, [], rs⟩ next) s t (.ready (next results)) s' := by
  obtain ⟨R', -, all, spec, hgood, -⟩ := h
  obtain ⟨results, s', hjobs⟩ := wp.runJobs crew hgood.pending
  obtain ⟨t, steps⟩ := Plan.runJobs_steps rs next hjobs
  exact ⟨_, _, s', steps.trans (.single .leave)⟩

/-- A plan can be run. -/
theorem Plan.wp.executes (p : Plan α) :
    ∀ {s}, p.wp e R Q s →
      (∃ t a s', p.Executes e k s t a s') ∧
      ∀ c next, p = .call c next →
        ∃ t a s', Config.Steps e k (.waiting c next) (k.world.start c s).2 t (.ready (.done a)) s' := by
  induction p with
  | done a =>
    intro s _
    exact ⟨⟨[], a, s, .refl⟩, by rintro c next ⟨⟩⟩
  | look next ih =>
    intro s h
    refine ⟨?_, by rintro c next ⟨⟩⟩
    have hnext := h s .refl
    cases hcall : (next (k.world.fired s)).isCall with
    | false =>
      obtain ⟨t, a, s', steps⟩ := (ih _ hnext).1
      exact ⟨_, a, s', .head (.look hcall) steps⟩
    | true =>
      cases heq : next (k.world.fired s) with
      | call c next' =>
        obtain ⟨t, a, s', steps⟩ := (ih _ hnext).2 c next' heq
        exact ⟨_, a, s', .head (.start heq) steps⟩
      | _ => simp [heq, isCall] at hcall
  | call c next ih =>
    intro s h
    obtain ⟨R', hR, hcalls⟩ := h
    obtain ⟨⟨reply, s₁, hfinish, -, hnext⟩, -⟩ := (hcalls s (R'.refl s)).2 _ (R'.refl _)
    obtain ⟨t, a, s', steps⟩ := (ih reply hnext).1
    refine ⟨⟨_, a, s', .head (.start rfl) (.head (.finish hfinish) steps)⟩, ?_⟩
    intro c' next' h'
    cases h'
    exact ⟨_, a, s', .head (.finish hfinish) steps⟩
  | pool crew jobs next ih =>
    intro s h
    refine ⟨?_, by rintro c next ⟨⟩⟩
    -- The pool is entered first, so that what is said of pools under way applies to it.
    have hpool := (Config.Steps.wp (.single .enter) (c := .ready (.pool crew jobs next)) h).2
    obtain ⟨t, results, s₁, steps⟩ := hpool.pool_steps
    obtain ⟨t', a, s', steps'⟩ := (ih results (steps.wp hpool).2).1
    exact ⟨_, a, s', .head .enter (steps.trans steps')⟩

/-- Whatever a run has done so far, it can be brought to its end. -/
theorem Config.wp.completes {c : Config α} {s : σ} (h : c.wp e R Q s) :
    ∃ t a s', Config.Steps e k c s t (.ready (.done a)) s' := by
  cases c with
  | ready p => exact (Plan.wp.executes p h).1
  | waiting c next =>
    obtain ⟨R', hR, hawaits⟩ := h
    obtain ⟨⟨reply, s₁, hfinish, -, hnext⟩, -⟩ := hawaits s (R'.refl s)
    obtain ⟨t, a, s', steps⟩ := (Plan.wp.executes _ hnext).1
    exact ⟨_, a, s', .head (.finish hfinish) steps⟩
  | pool P next =>
    obtain ⟨crew, jobs, ws, rs⟩ := P
    obtain ⟨R', hR, all, spec, hgood, hnext⟩ := id h
    -- First the jobs under way end, then the others are done in order, and then the run goes on.
    obtain ⟨t₁, rs', s₁, steps₁⟩ := hgood.working_steps next
    have h₁ := (steps₁.wp h).2
    obtain ⟨t₂, results, s₂, steps₂⟩ := h₁.pool_steps
    obtain ⟨t₃, a, s₃, steps₃⟩ := (Plan.wp.executes _ (steps₂.wp h₁).2).1
    exact ⟨_, a, s₃, steps₁.trans (steps₂.trans steps₃)⟩
  | broken => exact h.elim

end Wp

/-- However a plan is run from a state, and whatever the run has done so far, it can be brought to its end;
and with whatever outcome it comes to its end, the outcome is as it should be. -/
def Plan.Ensures (e : Engine) (k : Setting σ) (p : Plan α) (s : σ) (Q : α → σ → Prop) : Prop :=
  (∀ t c s', Config.Steps e k (.ready p) s t c s' →
    ∃ t' a s'', Config.Steps e k c s' t' (.ready (.done a)) s'') ∧
  ∀ t a s', p.Executes e k s t a s' → Q a s'

/-- The weakest precondition is about all runs, and about their ends. -/
theorem Plan.wp.ensures {R : Promise k} {p : Plan α} {Q : α → σ → Prop} {s : σ} (h : p.wp e R Q s) :
    p.Ensures e k s Q :=
  ⟨fun _ _ _ steps => (Config.Steps.wp steps h).2.completes, fun _ _ _ run => (run.wp h).2⟩

theorem Plan.Ensures.mono {p : Plan α} {Q Q' : α → σ → Prop} {s : σ} (h : p.Ensures e k s Q)
    (hQ : ∀ a s', Q a s' → Q' a s') : p.Ensures e k s Q' :=
  ⟨h.1, fun t a s' run => hQ a s' (h.2 t a s' run)⟩

end Geocoding.Engine
