import Geocoding.Proofs.Calls
import Geocoding.Proofs.Interleaving.Completion
import Geocoding.Rehearsal.Stage

/-!
# Runs on a clock

To run a plan on a clock is one way to order its steps: a run that comes to its end on a clock is one of the
runs of the plan, in a setting in which the alarm may go off at any moment. What holds of all runs
therefore holds of those on a clock.

A clock counts its steps, and would leave jobs undone if it ran out of them. That it does not is seen by
the calls that a task may still make: each step of the clock begins a job or ends a call. And a clock keeps
the jobs that wait in the order in which they are due, where a pool keeps those under way as they were begun.
-/

namespace Geocoding

section World

variable {I : Interface} {α σ : Type}

/-- A token that has fired does not recover from any call. -/
structure World.Lasting (w : World I σ) : Prop where
  start : ∀ {c s}, w.fired s = true → w.fired (w.start c s).2 = true
  finish : ∀ {c s}, w.fired s = true → w.fired (w.finish c s).2 = true
  abandon : ∀ {c s}, w.fired s = true → w.fired (w.abandon c s) = true

theorem World.Lasting.run {w : World I σ} (h : w.Lasting) (p : Program I α) {s : σ} (hs : w.fired s = true) :
    w.fired (p.run w s).2 = true := by
  induction p generalizing s with
  | done a => exact hs
  | look next ih => exact ih _ hs
  | call c next ih =>
    have hfinish : w.fired (w.answer c s).2 = true := h.finish (h.start hs)
    unfold Program.run
    split
    next reply s' heq =>
      rw [heq] at hfinish
      exact ih reply hfinish
    next s' heq =>
      rw [heq] at hfinish
      exact hfinish

end World

namespace Engine

variable {α σ : Type} {e : Engine}

/-! ## Tasks on a clock -/

/-- The setting of a clock: the alarm may go off at any moment. -/
abbrev Clockwork.setting (k : Clockwork σ) : Setting σ where
  world := k.world
  drift s s' := s' = k.fire s

/-- A task has gone as far as it goes without time passing. -/
def Strand.AdvancesTo (k : Setting σ) (who : Option Job) (strand : Strand α) (s : σ) :
    Progress α × σ → Prop
  | (.ended outcome, s') => strand.RunsTo k who s (outcome, s')
  | (.waiting _ c next, s') => ∃ t, Strand.Steps k who strand s t (.waiting c next) s'

/-- The calls that a task still makes, the one that it waits for among them. -/
def Progress.Within : Progress α → Nat → Prop
  | .ended _, _ => True
  | .waiting _ c next, n => (.call c next : Task α).Within n

theorem Progress.Within.mono {progress : Progress α} {m n : Nat} (h : progress.Within m) (hle : m ≤ n) :
    progress.Within n := by
  cases progress with
  | ended outcome => trivial
  | waiting delay c next => exact Program.Within.mono h hle

theorem Strand.AdvancesTo.head {k : Setting σ} {strand strand' : Strand α} {s s' : σ} {t : List Event}
    {r : Progress α × σ} (step : Strand.Step k who strand s t strand' s')
    (h : strand'.AdvancesTo k who s' r) : strand.AdvancesTo k who s r := by
  obtain ⟨outcome | ⟨delay, c, next⟩, s''⟩ := r
  · exact Strand.RunsTo.head step h
  · obtain ⟨t', steps⟩ := h
    exact ⟨t ++ t', .head step steps⟩

/-- To advance a task is one way to take its steps. The second part is about a call that the look before it
has started already. -/
theorem Strand.advancesTo {k : Setting σ} (who : Option Job) (p : Task α) :
    ∀ s, (Strand.ready p).AdvancesTo k who s (Timeline.advance k.world p s) ∧
      ∀ c next, p = .call c next →
        (Strand.waiting c next).AdvancesTo k who (k.world.start c s).2 (Timeline.advance k.world p s) := by
  induction p with
  | done a =>
    intro s
    exact ⟨⟨[], .refl⟩, by rintro c next ⟨⟩⟩
  | look next ih =>
    intro s
    refine ⟨?_, by rintro c next ⟨⟩⟩
    unfold Timeline.advance
    cases hcall : (next (k.world.fired s)).isCall with
    | false => exact (ih _ s).1.head (.look hcall)
    | true =>
      cases hnext : next (k.world.fired s) with
      | call c next' =>
        have hwaiting := (ih _ s).2 c next' hnext
        rw [hnext] at hwaiting
        exact hwaiting.head (.start hnext)
      | _ => simp [hnext, Program.isCall] at hcall
  | call c next ih =>
    intro s
    have hwaiting : (Strand.waiting c next).AdvancesTo k who (k.world.start c s).2
        (Timeline.advance k.world (.call c next) s) := by
      unfold Timeline.advance
      rcases k.world.start c s with ⟨_ | delay, s₁⟩
      · simp only
        split
        next reply s₂ hfinish => exact (ih reply s₂).1.head (.finish hfinish)
        next s₂ hfinish => exact ⟨[], c, next, _, .refl, hfinish⟩
      · exact ⟨[], .refl⟩
    refine ⟨hwaiting.head (.start rfl), ?_⟩
    intro c' next' h
    cases h
    exact hwaiting

/-- A job that waits is resumed by the end of its call. -/
theorem Strand.advancesTo_resume {k : Setting σ} (who : Option Job) (x : Waiting) (s : σ) :
    (Strand.waiting x.call x.next).AdvancesTo k who s (Timeline.resume k.world x s) := by
  unfold Timeline.resume
  split
  next reply s' hfinish => exact (Strand.advancesTo who (x.next reply) s').1.head (.finish hfinish)
  next s' hfinish => exact ⟨[], x.call, x.next, s, .refl, hfinish⟩

theorem advance_within (w : World collaborators σ) {p : Task α} {n : Nat} (h : p.Within n) (s : σ) :
    (Timeline.advance w p s).1.Within n := by
  induction p generalizing n s with
  | done a => trivial
  | look next ih => exact ih _ (h _) s
  | call c next ih =>
    cases n with
    | zero => exact h.elim
    | succ n =>
      unfold Timeline.advance
      rcases w.start c s with ⟨_ | delay, s₁⟩
      · simp only
        split
        next reply s₂ _ => exact (ih reply (h reply) s₂).mono (Nat.le_succ n)
        next => trivial
      · exact h

theorem resume_within (w : World collaborators σ) {x : Waiting} {n : Nat}
    (h : ∀ reply, (x.next reply).Within n) (s : σ) : (Timeline.resume w x s).1.Within n := by
  unfold Timeline.resume
  split
  next reply s' _ => exact advance_within w (h reply) s'
  next => trivial

/-! ## Pools on a clock -/

/-- The jobs under way in a pool are those that wait on a clock, one by one, and all of them together make
no more than that many calls, those that they wait for among them. -/
inductive Manned : List Worker → List Waiting → Nat → Prop where
  | nil {n : Nat} : Manned [] [] n
  | cons {j : Job} {ws : List Worker} {x : Waiting} {xs : List Waiting} {m n l : Nat} (row : x.row = j.row)
      (within : ∀ reply, (x.next reply).Within m) (rest : Manned ws xs n) (le : m + 1 + n ≤ l) :
      Manned (⟨j, .waiting x.call x.next⟩ :: ws) (x :: xs) l

theorem Manned.mono {ws : List Worker} {xs : List Waiting} {m n : Nat} (h : Manned ws xs m) (hle : m ≤ n) :
    Manned ws xs n := by
  cases h with
  | nil => exact .nil
  | cons row within rest le => exact .cons row within rest (Nat.le_trans le hle)

theorem Manned.length_eq {ws : List Worker} {xs : List Waiting} {n : Nat} (h : Manned ws xs n) :
    ws.length = xs.length := by
  induction h with
  | nil => rfl
  | cons _ _ _ _ ih => rw [List.length_cons, List.length_cons, ih]

/-- A job that begins to wait takes its place among those that do. -/
theorem Manned.enqueue {j : Job} {ws : List Worker} {x : Waiting} {xs : List Waiting} {m n : Nat}
    (h : Manned ws xs n) (hrow : x.row = j.row) (hwithin : ∀ reply, (x.next reply).Within m) :
    ∃ ws', ws'.Perm (⟨j, .waiting x.call x.next⟩ :: ws) ∧
      Manned ws' (Timeline.enqueue x xs) (m + 1 + n) := by
  induction h with
  | nil => exact ⟨_, .refl _, .cons hrow hwithin .nil (Nat.le_refl _)⟩
  | cons row within rest le ih =>
    unfold Timeline.enqueue
    split
    · exact ⟨_, .refl _, .cons hrow hwithin (.cons row within rest le) (Nat.le_refl _)⟩
    · obtain ⟨ws', hperm, hmanned⟩ := ih
      exact ⟨_, (hperm.cons _).trans (.swap ..), .cons row within hmanned (by omega)⟩

section Pool

variable {k : Clockwork σ} {crew : Crew}

/-- What a job that has been advanced becomes on the clock, it becomes in the pool. -/
theorem settle_steps {j : Job} {strand : Strand Outcome} {s s' : σ} {progress : Progress Outcome}
    (hadvances : strand.AdvancesTo k.setting (some j) s (progress, s')) {m n now : Nat}
    (hwithin : progress.Within m) {l r ws : List Worker} {xs waiting : List Waiting}
    (hperm : (l ++ r).Perm ws) (hmanned : Manned ws xs n) {ended : List (Row × Outcome)}
    (hsettle : Timeline.settle crew j.row now xs progress = some (ended, waiting)) (jobs : List Job)
    (rs : List (Row × Outcome)) (next : List (Row × Outcome) → Plan α) :
    ∃ t working ws', Config.Steps e k.setting (.pool ⟨crew, jobs, l ++ ⟨j, strand⟩ :: r, rs⟩ next) s t
        (.pool ⟨crew, jobs, working, rs ++ ended⟩ next) s' ∧
      working.Perm ws' ∧ Manned ws' waiting (m + n) := by
  cases progress with
  | ended outcome =>
    have hcrew : crew = .workers ∨ outcome ≠ none := by
      cases crew with
      | workers => exact .inl rfl
      | itself =>
        right
        rintro rfl
        cases hsettle
    obtain ⟨t, steps⟩ := Strand.RunsTo.inPool (e := e) hadvances hcrew jobs l r rs next
    have hsettled : (outcome.map fun outcome => (j.row, outcome)).toList = ended ∧ xs = waiting := by
      cases outcome with
      | some outcome => simpa [Timeline.settle] using hsettle
      | none =>
        obtain rfl := hcrew.resolve_right fun h => h rfl
        simpa [Timeline.settle] using hsettle
    obtain ⟨rfl, rfl⟩ := hsettled
    exact ⟨t, l ++ r, ws, steps, hperm, hmanned.mono (Nat.le_add_left _ _)⟩
  | waiting delay c next' =>
    obtain ⟨t, steps⟩ := hadvances
    obtain ⟨rfl, rfl⟩ : [] = ended ∧ Timeline.enqueue ⟨j.row, now + delay, c, next'⟩ xs = waiting := by
      simpa [Timeline.settle] using hsettle
    cases m with
    | zero => exact hwithin.elim
    | succ m =>
      obtain ⟨ws', hperm', hmanned'⟩ :=
        hmanned.enqueue (j := j) (x := ⟨j.row, now + delay, c, next'⟩) rfl hwithin
      refine ⟨t, l ++ ⟨j, .waiting c next'⟩ :: r, ws', ?_, ?_, hmanned'⟩
      · rw [List.append_nil]
        exact steps.inPool
      · exact List.perm_middle.trans ((hperm.cons _).trans hperm'.symm)

/-- The jobs that wait when the token has fired are given up one after the other. -/
theorem giveUp_steps (hk : k.world.Lasting) {ws : List Worker} {xs : List Waiting} {n : Nat}
    (hmanned : Manned ws xs n) (jobs : List Job) (next : List (Row × Outcome) → Plan α) :
    ∀ (rs : List (Row × Outcome)) {working s results s'}, working.Perm ws → k.world.fired s = true →
      Timeline.giveUp k.world crew xs s = (some results, s') →
      ∃ t, Config.Steps e k.setting (.pool ⟨crew, jobs, working, rs⟩ next) s t
        (.pool ⟨crew, jobs, [], rs ++ results⟩ next) s' := by
  induction hmanned with
  | nil =>
    intro rs working s results s' hperm _ h
    obtain rfl := hperm.eq_nil
    simp only [Timeline.giveUp, Prod.mk.injEq, Option.some.injEq] at h
    obtain ⟨rfl, rfl⟩ := h
    exact ⟨[], by simpa using Config.Steps.refl⟩
  | @cons j ws x xs _ _ _ row _ _ _ ih =>
    intro rs working s results s' hperm hfired h
    obtain ⟨l, r, rfl⟩ := List.append_of_mem (hperm.mem_iff.2 List.mem_cons_self)
    have hrest : (l ++ r).Perm ws := (List.perm_middle.symm.trans hperm).cons_inv
    unfold Timeline.giveUp at h
    -- The job sees its call cancelled, and does at once what it still does after that.
    have hruns := (Strand.runsTo (k := k.setting) (some j) (x.next (.error .cancelled))
      (k.world.abandon x.call s)).1.head (.giveUp hfired)
    have hlasts := hk.run (x.next (.error .cancelled)) (hk.abandon (c := x.call) hfired)
    rcases hrun : (x.next (.error .cancelled)).run k.world (k.world.abandon x.call s) with ⟨_ | outcome, s₁⟩
    · rw [hrun] at h hruns hlasts
      cases crew with
      | itself => cases h
      | workers =>
        obtain ⟨t, steps⟩ := hruns.inPool (e := e) (.inl rfl) jobs l r rs next
        obtain ⟨t', steps'⟩ := ih rs hrest hlasts h
        exact ⟨_, steps.trans (by simpa using steps')⟩
    · rw [hrun] at h hruns hlasts
      obtain ⟨t, steps⟩ := hruns.inPool (e := e) (.inr (by simp)) jobs l r rs next
      rcases hlater : Timeline.giveUp k.world crew xs s₁ with ⟨_ | later, s₂⟩
      · simp [hlater] at h
      · simp only [hlater, Option.map_some, Prod.mk.injEq, Option.some.injEq] at h
        obtain ⟨rfl, rfl⟩ := h
        obtain ⟨t', steps'⟩ := ih (rs ++ [(x.row, outcome)]) hrest hlasts hlater
        rw [row] at steps' ⊢
        exact ⟨_, steps.trans (by simpa using steps')⟩

/-- Once the token has fired, what waits is given up, and the other jobs are done without delay. -/
theorem runJobs_fired_steps (hk : k.world.Lasting) {fuel : Nat} {jobs : List Job} {waiting : List Waiting}
    {t t' : Timeline σ} {results : List (Row × Outcome)} (hfired : k.world.fired t.state = true)
    (h : Timeline.runJobs e k crew (fuel + 1) jobs waiting t = (some results, t')) {ws working : List Worker}
    {n : Nat} (hmanned : Manned ws waiting n) (hperm : working.Perm ws)
    (rs : List (Row × Outcome)) (next : List (Row × Outcome) → Plan α) :
    ∃ tr, Config.Steps e k.setting (.pool ⟨crew, jobs, working, rs⟩ next) t.state tr
      (.pool ⟨crew, [], [], rs ++ results⟩ next) t'.state := by
  unfold Timeline.runJobs at h
  rw [if_pos hfired] at h
  rcases hgiven : Timeline.giveUp k.world crew waiting t.state with ⟨_ | ended, s₁⟩
  · simp [hgiven] at h
  · obtain ⟨tr, steps⟩ := giveUp_steps (e := e) hk hmanned jobs next rs hperm hfired hgiven
    rcases hrest : Plan.runJobs e k.world crew jobs s₁ with ⟨_ | later, s₂⟩
    · simp [hgiven, hrest] at h
    · simp only [hgiven, hrest, Option.map_some, Prod.mk.injEq, Option.some.injEq] at h
      obtain ⟨rfl, rfl⟩ := h
      obtain ⟨tr', steps'⟩ := Plan.runJobs_steps (k := k.setting) (rs ++ ended) next hrest
      exact ⟨_, steps.trans (by simpa using steps')⟩

/-- Time that passes changes the state by no more than the alarm. -/
theorem passTo_steps (t : Timeline σ) (moment : Nat) (c : Config α) :
    ∃ tr, Config.Steps e k.setting c t.state tr c (t.passTo k moment).state := by
  unfold Timeline.passTo
  split
  · split
    · exact ⟨_, .single (.drift rfl)⟩
    · exact ⟨_, .refl⟩
  · exact ⟨_, .refl⟩

/-- A job that has been advanced is settled, and the clock goes on with the others. -/
def Timeline.GoesOn (e : Engine) (k : Clockwork σ) (crew : Crew) (fuel : Nat) (row : Row) (jobs : List Job)
    (waiting : List Waiting) (t : Timeline σ) (advanced : Progress Outcome × σ)
    (results : List (Row × Outcome)) (t' : Timeline σ) : Prop :=
  ∃ ended waiting' later, Timeline.settle crew row t.now waiting advanced.1 = some (ended, waiting') ∧
    Timeline.runJobs e k crew fuel jobs waiting' { t with state := advanced.2 } = (some later, t') ∧
    results = ended ++ later

theorem Timeline.GoesOn.of_map {fuel : Nat} {row : Row} {jobs : List Job} {waiting waiting' : List Waiting}
    {t t' : Timeline σ} {advanced : Progress Outcome × σ} {ended results : List (Row × Outcome)}
    (hsettle : Timeline.settle crew row t.now waiting advanced.1 = some (ended, waiting'))
    (h : ((Timeline.runJobs e k crew fuel jobs waiting' { t with state := advanced.2 }).1.map (ended ++ ·),
      (Timeline.runJobs e k crew fuel jobs waiting' { t with state := advanced.2 }).2) = (some results, t')) :
    Timeline.GoesOn e k crew fuel row jobs waiting t advanced results t' := by
  rcases hrest : Timeline.runJobs e k crew fuel jobs waiting' { t with state := advanced.2 } with ⟨_ | later, t''⟩
  · simp [hrest] at h
  · simp only [hrest, Option.map_some, Prod.mk.injEq, Option.some.injEq] at h
    obtain ⟨rfl, rfl⟩ := h
    exact ⟨_, _, _, hsettle, hrest, rfl⟩

/-- What a step of the clock does, unless the token has fired: it ends, or begins a job, or lets time pass until
the first job that waits is due, and then resumes it, or gives up if the alarm has gone off. -/
theorem Timeline.runJobs_cases {fuel : Nat} {jobs : List Job} {waiting : List Waiting} {t t' : Timeline σ}
    {results : List (Row × Outcome)} (hfired : k.world.fired t.state = false)
    (h : Timeline.runJobs e k crew (fuel + 1) jobs waiting t = (some results, t')) :
    (jobs = [] ∧ waiting = [] ∧ results = [] ∧ t' = t) ∨
    (∃ j rest, jobs = j :: rest ∧ waiting.length < e.concurrency ∧
      Timeline.GoesOn e k crew fuel j.row rest waiting t (Timeline.advance k.world (e.task j) t.state) results t') ∨
    ∃ x others, waiting = x :: others ∧
      if k.world.fired (t.passTo k x.due).state then
        Timeline.runJobs e k crew fuel jobs waiting (t.passTo k x.due) = (some results, t')
      else
        Timeline.GoesOn e k crew fuel x.row jobs others (t.passTo k x.due)
          (Timeline.resume k.world x (t.passTo k x.due).state) results t' := by
  unfold Timeline.runJobs at h
  rw [if_neg (by simp [hfired])] at h
  split at h
  next j rest heq =>
    split at heq
    next hroom =>
      subst heq
      refine .inr (.inl ⟨j, rest, rfl, hroom, ?_⟩)
      simp only at h
      split at h
      next hsettle => exact .of_map hsettle h
      next => cases h
    next => cases heq
  next x others heq =>
    refine .inr (.inr ⟨x, others, rfl, ?_⟩)
    split
    next hlate =>
      rw [if_pos hlate] at h
      exact h
    next hlate =>
      rw [if_neg hlate] at h
      simp only at h
      split at h
      next hsettle => exact .of_map hsettle h
      next => cases h
  next heq =>
    rw [List.length_nil, if_pos e.concurrency_pos] at heq
    simp only [Prod.mk.injEq, Option.some.injEq] at h
    exact .inl ⟨heq, rfl, h.1.symm, h.2.symm⟩

/-- A clock that has steps enough does the jobs of a pool, in one of the orders in which they may be done. -/
theorem Timeline.runJobs_steps (hk : k.world.Lasting) (next : List (Row × Outcome) → Plan α) {fuel : Nat} :
    ∀ (rs : List (Row × Outcome)) {jobs waiting results} {t t' : Timeline σ} {ws working : List Worker} {n},
      Manned ws waiting n → working.Perm ws →
      jobs.length * (e.providers.length + 3) + n + 2 ≤ fuel →
      Timeline.runJobs e k crew fuel jobs waiting t = (some results, t') →
      ∃ tr, Config.Steps e k.setting (.pool ⟨crew, jobs, working, rs⟩ next) t.state tr
        (.pool ⟨crew, [], [], rs ++ results⟩ next) t'.state := by
  -- The fuel is more than the steps that are left: every job that is still to be begun takes one for itself
  -- and one for each of its calls, and a job that waits takes one for each call that it still makes.
  induction fuel with
  | zero =>
    intro rs jobs waiting results t t' ws working n _ _ hfuel
    omega
  | succ fuel ih =>
    intro rs jobs waiting results t t' ws working n hmanned hperm hfuel h
    cases hfired : k.world.fired t.state with
    | true => exact runJobs_fired_steps hk hfired h hmanned hperm rs next
    | false =>
      have hgoes : ∀ {j : Job} {strand s jobs waiting} {t : Timeline σ} {advanced : Progress Outcome × σ}
          {m n} {l r ws : List Worker}, Timeline.GoesOn e k crew fuel j.row jobs waiting t advanced results t' →
          strand.AdvancesTo k.setting (some j) s advanced → advanced.1.Within m → (l ++ r).Perm ws →
          Manned ws waiting n → jobs.length * (e.providers.length + 3) + (m + n) + 2 ≤ fuel →
          ∃ tr, Config.Steps e k.setting (.pool ⟨crew, jobs, l ++ ⟨j, strand⟩ :: r, rs⟩ next) s tr
            (.pool ⟨crew, [], [], rs ++ results⟩ next) t'.state := by
        intro j strand s jobs waiting t advanced m n l r ws hgoes hadvances hwithin hperm hmanned hfuel
        obtain ⟨ended, waiting', later, hsettle, hrest, rfl⟩ := hgoes
        obtain ⟨tr, working', ws', steps, hperm', hmanned'⟩ :=
          settle_steps (e := e) hadvances hwithin hperm hmanned hsettle jobs rs next
        obtain ⟨tr', steps'⟩ := ih (rs ++ ended) hmanned' hperm' hfuel hrest
        exact ⟨_, steps.trans (by simpa using steps')⟩
      rcases Timeline.runJobs_cases hfired h with ⟨rfl, rfl, rfl, rfl⟩ | hbegins | hresumes
      · cases hmanned
        obtain rfl := hperm.eq_nil
        exact ⟨[], by simpa using Config.Steps.refl⟩
      · obtain ⟨j, rest, rfl, hroom, hgoeson⟩ := hbegins
        rw [← hmanned.length_eq, ← hperm.length_eq] at hroom
        rw [List.length_cons, Nat.succ_mul] at hfuel
        have hadvances := (Strand.advancesTo (k := k.setting) (some j) (e.task j) t.state).1
        obtain ⟨tr, steps⟩ := hgoes (l := working) (r := []) hgoeson hadvances
          (advance_within k.world (e.within_task j) t.state) (by simpa using hperm) hmanned (by omega)
        exact ⟨_, .head (.work (.begin hroom fun _ => hfired)) steps⟩
      · obtain ⟨x, others, rfl, hresumes⟩ := hresumes
        obtain ⟨tr, steps⟩ := passTo_steps (e := e) (k := k) t x.due (.pool ⟨crew, jobs, working, rs⟩ next)
        split at hresumes
        next hlate =>
          obtain ⟨fuel, rfl⟩ : ∃ f, fuel = f + 1 := ⟨fuel - 1, by omega⟩
          obtain ⟨tr', steps'⟩ := runJobs_fired_steps hk hlate hresumes hmanned hperm rs next
          exact ⟨_, steps.trans steps'⟩
        next =>
          cases hmanned with
          | @cons j ws _ _ m n _ hrow hwithin hothers hle =>
            obtain ⟨l, r, rfl⟩ := List.append_of_mem (hperm.mem_iff.2 List.mem_cons_self)
            have hrest : (l ++ r).Perm ws := (List.perm_middle.symm.trans hperm).cons_inv
            rw [hrow] at hresumes
            obtain ⟨tr', steps'⟩ := hgoes hresumes (Strand.advancesTo_resume (some j) x _)
              (resume_within k.world hwithin _) hrest hothers (by omega)
            exact ⟨_, steps.trans steps'⟩

end Pool

/-- To run a plan on a clock is one of its runs. -/
theorem Plan.executes_of_runTimed {k : Clockwork σ} (hk : k.world.Lasting) (p : Plan α) :
    ∀ {a} {t t' : Timeline σ}, p.runTimed e k t = (some a, t') →
      (∃ tr, p.Executes e k.setting t.state tr a t'.state) ∧
      ∀ c next, p = .call c next →
        ∃ tr, Config.Steps e k.setting (.waiting c next) (k.world.start c t.state).2 tr (.ready (.done a))
          t'.state := by
  induction p with
  | done a =>
    intro a' t t' h
    simp only [runTimed, Prod.mk.injEq, Option.some.injEq] at h
    obtain ⟨rfl, rfl⟩ := h
    exact ⟨⟨[], .refl⟩, by rintro c next ⟨⟩⟩
  | look next ih =>
    intro a t t' h
    refine ⟨?_, by rintro c next ⟨⟩⟩
    unfold runTimed at h
    cases hcall : (next (k.world.fired t.state)).isCall with
    | false =>
      obtain ⟨tr, steps⟩ := (ih _ h).1
      exact ⟨_, .head (.look hcall) steps⟩
    | true =>
      cases hnext : next (k.world.fired t.state) with
      | call c next' =>
        obtain ⟨tr, steps⟩ := (ih _ h).2 c next' hnext
        exact ⟨_, .head (.start hnext) steps⟩
      | _ => simp [hnext, isCall] at hcall
  | call c next ih =>
    intro a t t' h
    have hwaiting : ∃ tr, Config.Steps e k.setting (.waiting c next) (k.world.start c t.state).2 tr
        (.ready (.done a)) t'.state := by
      unfold runTimed at h
      rcases hstart : k.world.start c t.state with ⟨delay, s⟩
      simp only [hstart] at h ⊢
      -- Time passes while the call waits, and then it ends, or is given up if the alarm has gone off.
      obtain ⟨tr, steps⟩ := passTo_steps (e := e) (k := k) { t with state := s } (t.now + delay)
        (.waiting c next)
      split at h
      next hlate =>
        obtain ⟨tr', steps'⟩ := (ih _ h).1
        exact ⟨_, steps.trans (.head (.giveUp hlate.2) steps')⟩
      next =>
        split at h
        next reply s' hfinish =>
          obtain ⟨tr', steps'⟩ := (ih _ h).1
          exact ⟨_, steps.trans (.head (.finish hfinish) steps')⟩
        next => cases h
    obtain ⟨tr, steps⟩ := hwaiting
    refine ⟨⟨_, .head (.start rfl) steps⟩, ?_⟩
    intro c' next' heq
    cases heq
    exact ⟨tr, steps⟩
  | pool crew jobs next ih =>
    intro a t t' h
    refine ⟨?_, by rintro c next ⟨⟩⟩
    unfold runTimed at h
    split at h
    next results t₁ hjobs =>
      have hfuel : jobs.length * (e.providers.length + 3) + 0 + 2 ≤ Timeline.stepBound e jobs := Nat.le_refl _
      obtain ⟨tr, steps⟩ := Timeline.runJobs_steps (n := 0) hk next [] .nil (.refl []) hfuel hjobs
      obtain ⟨tr', steps'⟩ := (ih results h).1
      exact ⟨_, .head .enter (steps.trans (.head .leave steps'))⟩
    next => cases h

/-- What all runs ensure, a run on a clock does. -/
theorem Plan.Ensures.of_runTimed {k : Clockwork σ} (hk : k.world.Lasting) {p : Plan α} {t t' : Timeline σ}
    {Q : α → σ → Prop} (h : p.Ensures e k.setting t.state Q) {a : α} (hrun : p.runTimed e k t = (some a, t')) :
    Q a t'.state := by
  obtain ⟨tr, run⟩ := (Plan.executes_of_runTimed hk p hrun).1
  exact h.2 tr a t'.state run

end Engine

/-! ## Rehearsals -/

namespace Rehearsal.Stage

/-- A lookup in the database does not touch the token. -/
theorem lasting_lookups (position : Nat) (rows : Choice (Except Error (Option Spatial.Match))) :
    (lookups position rows).Lasting where
  start h := h
  finish {c _} h := by cases c <;> exact h
  abandon h := h

theorem fired_start {s : Stage} (h : s.fired = true) (c : Engine.Call) : (start c s).2.fired = true := by
  unfold start
  split
  · split <;> simpa [note] using h
  · split <;> simpa [note] using h
  · exact h

theorem fired_resolve {s : Stage} (h : s.fired = true) (position : Nat) (a : Address) :
    (s.resolve position a).2.fired = true := by
  unfold resolve
  split
  next => simp [fireIf, note, h]
  next settings rows _ =>
    generalize settings.geocode a = p
    exact (lasting_lookups position rows).run p h
  next => exact h
  next => exact h

theorem fired_submit {s : Stage} (h : s.fired = true) (position : Nat) (rows : List Address) :
    (s.submit position rows).2.fired = true := by
  unfold submit
  split
  · split
    · simp [fireIf, h]
    · exact h
  · exact h
  · exact h

theorem fired_check (s : Stage) (key : String) : (s.check key).2.fired = s.fired := by
  unfold check
  split
  · rfl
  · split <;> rfl
  · rfl

theorem fired_store (s : Stage) (key : String) (r : Resolution) : (s.store key r).2.fired = s.fired := by
  unfold store
  split
  · rfl
  · split <;> rfl
  · rfl

/-- The stand-ins never take the token back. -/
theorem lasting_world : world.Lasting where
  start {c _} h := fired_start h c
  finish {c s} h := by
    cases c with
    | geocode position a => exact fired_resolve h position a
    | submit position rows => exact fired_submit h position rows
    | check key => exact (fired_check s key).trans h
    | store key r => exact (fired_store s key r).trans h
  abandon {c _} h := by cases c <;> exact h

/-- A rehearsal that comes to its end is one of the runs of its plan. -/
theorem executes_of_perform {α : Type} {s s' : Stage} {e : Engine} {fired : Bool} {alarm : Option Nat}
    {plan : Engine.Plan α} {a : α} (h : s.perform e fired alarm plan = (some a, s')) :
    ∃ t, plan.Executes e clockwork.setting (s.turn.fireIf fired) t a s' := by
  unfold perform at h
  rcases hrun : plan.runTimed e clockwork { alarm, state := s.turn.fireIf fired } with ⟨outcome, t⟩
  rw [hrun] at h
  obtain ⟨rfl, rfl⟩ := Prod.mk.inj h
  exact (Engine.Plan.executes_of_runTimed lasting_world plan hrun).1

end Rehearsal.Stage

end Geocoding
