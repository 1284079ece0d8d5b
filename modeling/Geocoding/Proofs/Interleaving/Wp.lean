import Geocoding.Engine.Interleaving
import Mathlib.Data.List.Perm.Subperm
import Mathlib.Logic.Relation

/-!
# Reasoning about plans in every order

A task is reasoned about by itself. What the rest of the world may do in between is a *promise*: a relation
between states that every step of anyone keeps, so each task may rely on it and has to keep it as well. The
weakest precondition of a task says that it keeps the promise and what it comes to, whatever happens in
between within the promise. For plans it also says what the jobs of each pool come to.

`Config.Steps.wp` is the result: from a state in which the weakest precondition holds, every sequence of
steps keeps the promise, and a run that comes to its end meets its postcondition.
-/

namespace Geocoding.Engine

variable {α β σ : Type} {k : Setting σ}

/-- How the state may have changed from one moment to a later one, whoever had the turn in between. -/
structure Promise (k : Setting σ) where
  holds : σ → σ → Prop
  refl : ∀ s, holds s s
  trans : ∀ {s s' s''}, holds s s' → holds s' s'' → holds s s''
  drift : ∀ {s s'}, k.drift s s' → holds s s'
  fired : ∀ {s s'}, holds s s' → k.world.fired s = true → k.world.fired s' = true

/-- One promise implies another. -/
def Promise.Implies (R' R : Promise k) : Prop :=
  ∀ s s', R'.holds s s' → R.holds s s'

theorem Promise.Implies.refl (R : Promise k) : R.Implies R := fun _ _ => id

/-- A call that waits ends within a promise, and with a reply that `P` holds of. -/
def Awaits (R : Promise k) (c : Call) (P : collaborators.Reply c → σ → Prop) (s : σ) : Prop :=
  ∀ s', R.holds s s' →
    (∃ reply s'', k.world.finish c s' = (some reply, s'') ∧ R.holds s' s'' ∧ P reply s'') ∧
    (k.world.fired s' = true →
      R.holds s' (k.world.abandon c s') ∧ P (.error .cancelled) (k.world.abandon c s'))

/-- A call that is to be made starts and ends within a promise, and with a reply that `P` holds of. -/
def Calls (R : Promise k) (c : Call) (P : collaborators.Reply c → σ → Prop) (s : σ) : Prop :=
  ∀ s', R.holds s s' →
    R.holds s' (k.world.start c s').2 ∧ Awaits R c P (k.world.start c s').2

theorem Awaits.mono {R : Promise k} {c : Call} {P P' : collaborators.Reply c → σ → Prop} {s : σ}
    (h : Awaits R c P s) (hP : ∀ reply s', P reply s' → P' reply s') : Awaits R c P' s := by
  intro s' hs
  obtain ⟨⟨reply, s'', hfinish, hR, hp⟩, hfired⟩ := h s' hs
  exact ⟨⟨reply, s'', hfinish, hR, hP _ _ hp⟩, fun hf => ⟨(hfired hf).1, hP _ _ (hfired hf).2⟩⟩

theorem Calls.mono {R : Promise k} {c : Call} {P P' : collaborators.Reply c → σ → Prop} {s : σ}
    (h : Calls R c P s) (hP : ∀ reply s', P reply s' → P' reply s') : Calls R c P' s :=
  fun s' hs => ⟨(h s' hs).1, (h s' hs).2.mono hP⟩

/-! ## Tasks -/

/-- The weakest precondition of a task under a promise. -/
def wp (R : Promise k) (Q : α → σ → Prop) : Task α → σ → Prop
  | .done a, s => ∀ s', R.holds s s' → Q a s'
  | .look next, s => ∀ s', R.holds s s' → wp R Q (next (k.world.fired s')) s'
  | .call c next, s => Calls R c (fun reply s' => wp R Q (next reply) s') s

/-- The weakest precondition of a task under way. -/
def Strand.wp (R : Promise k) (Q : α → σ → Prop) : Strand α → σ → Prop
  | .ready p, s => Engine.wp R Q p s
  | .waiting c next, s => Awaits R c (fun reply s' => Engine.wp R Q (next reply) s') s

section Task

variable {R : Promise k} {Q : α → σ → Prop} {p : Task α} {s s' : σ}

theorem wp.later (h : wp R Q p s) (hs : R.holds s s') : wp R Q p s' := by
  cases p with
  | done a =>
    intro s'' hs'
    exact h s'' (R.trans hs hs')
  | look next =>
    intro s'' hs'
    exact h s'' (R.trans hs hs')
  | call c next =>
    intro s'' hs'
    exact h s'' (R.trans hs hs')

theorem wp.bind {Q : β → σ → Prop} {f : α → Task β} (h : wp R (fun a s' => wp R Q (f a) s') p s) :
    wp R Q (p.bind f) s := by
  induction p generalizing s with
  | done a => exact h s (R.refl s)
  | look next ih =>
    intro s' hs
    exact ih _ (h s' hs)
  | call c next ih => exact Calls.mono h fun reply s' hnext => ih reply hnext

theorem wp.done {a : α} (h : ∀ s', R.holds s s' → Q a s') : wp R Q (.done a) s := h

/-- A look at the token goes on with what it sees. -/
theorem wp.fired {f : Bool → Task α} (h : ∀ s', R.holds s s' → wp R Q (f (k.world.fired s')) s') :
    wp R Q (Program.fired.bind f) s := h

/-- A guarded call is refused if the token has fired, and made otherwise. -/
theorem wp.guarded {c : Call} {Q : collaborators.Reply c → σ → Prop}
    (hfired : ∀ s', R.holds s s' → k.world.fired s' = true → Q (.error .cancelled) s')
    (hcalls : Calls R c (fun reply s₁ => ∀ s', R.holds s₁ s' → Q reply s') s) :
    wp R Q (Program.guarded collaborators c) s := by
  intro s₁ hs₁
  -- The look and the call come apart here: others may have had their turns in between.
  cases hf : k.world.fired s₁ with
  | false =>
    intro s' hs'
    exact hcalls s' (R.trans hs₁ hs')
  | true =>
    intro s' hs'
    exact hfired s' (R.trans hs₁ hs') (R.fired hs' hf)

/-- A task that is run by itself comes to its end, and meets its postcondition there. -/
theorem wp.run (h : wp R Q p s) :
    ∃ a s', p.run k.world s = (some a, s') ∧ R.holds s s' ∧ Q a s' := by
  induction p generalizing s with
  | done a => exact ⟨a, s, rfl, R.refl s, h s (R.refl s)⟩
  | look next ih => exact ih _ (h s (R.refl s))
  | call c next ih =>
    obtain ⟨hstart, hawaits⟩ := h s (R.refl s)
    obtain ⟨⟨reply, s₁, hfinish, hs₁, hnext⟩, -⟩ := hawaits _ (R.refl _)
    obtain ⟨a, s', hrun, hs', hq⟩ := ih reply hnext
    refine ⟨a, s', ?_, R.trans hstart (R.trans hs₁ hs'), hq⟩
    unfold Program.run World.answer
    rw [hfinish]
    exact hrun

/-- A look at the token, whether it clears a call or not. -/
theorem wp.looked (h : wp R Q p s) : wp R Q (p.looked (k.world.fired s)) s := by
  cases p with
  | done a => exact h
  | look next => exact h s (R.refl s)
  | call c next => exact h

theorem Strand.wp.later {strand : Strand α} (h : strand.wp R Q s) (hs : R.holds s s') :
    strand.wp R Q s' := by
  cases strand with
  | ready p => exact Engine.wp.later h hs
  | waiting c next =>
    intro s'' hs'
    exact h s'' (R.trans hs hs')

theorem Strand.Step.wp {who : Option Job} {strand strand' : Strand α} {t : List Event}
    (step : strand.Step k who s t strand' s') (h : strand.wp R Q s) :
    R.holds s s' ∧ strand'.wp R Q s' := by
  cases step with
  | look _ => exact ⟨R.refl s, h s (R.refl s)⟩
  | start hp =>
    -- The step looks and starts the call at once, so the precondition is used at `s` for both.
    have hlooked := Engine.wp.looked h
    rw [hp] at hlooked
    exact hlooked s (R.refl s)
  | finish hfinish =>
    obtain ⟨⟨reply, s'', hfinish', hs, hnext⟩, -⟩ := h s (R.refl s)
    rw [hfinish, Prod.mk.injEq, Option.some.injEq] at hfinish'
    obtain ⟨rfl, rfl⟩ := hfinish'
    exact ⟨hs, hnext⟩
  | giveUp hf => exact (h s (R.refl s)).2 hf

/-- Within a promise nothing breaks down. -/
theorem Strand.wp.not_broken {c : Call} {next : collaborators.Reply c → Task α}
    (h : (Strand.waiting c next).wp R Q s) : k.world.finish c s ≠ (none, s') := by
  intro hnone
  obtain ⟨⟨reply, s'', hfinish, -⟩, -⟩ := h s (R.refl s)
  rw [hnone] at hfinish
  cases hfinish

end Task

/-! ## Pools -/

/-- What a pool brings back: each job at most once, and every job unless workers saw the token fire. -/
def Brought (k : Setting σ) (crew : Crew) (jobs : List Job) (spec : Job → Outcome → σ → Prop)
    (results : List (Row × Outcome)) (s : σ) : Prop :=
  ∃ ended : List (Job × Outcome),
    results = ended.map (fun d => (d.1.row, d.2)) ∧
    (∀ d ∈ ended, spec d.1 d.2 s) ∧
    (ended.map Prod.fst).Subperm jobs ∧
    (crew = .itself ∨ k.world.fired s = false → (ended.map Prod.fst).Perm jobs)

/-- The jobs that a pool still has to do. -/
def Pool.open (pool : Pool) : List Job :=
  pool.working.map Worker.job ++ pool.pending

/-- A pool on its way with some jobs: each of them is still to be done or has met its specification, or
else workers have seen the token fire. -/
structure Pool.Good (e : Engine) (R : Promise k) (jobs : List Job) (spec : Job → Outcome → σ → Prop)
    (pool : Pool) (s : σ) : Prop where
  pending : ∀ j ∈ pool.pending, wp R (spec j) (e.task j) s
  working : ∀ w ∈ pool.working, w.strand.wp R (spec w.job) s
  ended : ∃ ended : List (Job × Outcome),
    pool.results = ended.map (fun d => (d.1.row, d.2)) ∧
    (∀ d ∈ ended, ∀ s', R.holds s s' → spec d.1 d.2 s') ∧
    (ended.map Prod.fst ++ pool.open).Subperm jobs ∧
    (pool.crew = .itself ∨ k.world.fired s = false → (ended.map Prod.fst ++ pool.open).Perm jobs)

section Pool

variable {e : Engine} {R : Promise k} {jobs : List Job} {spec : Job → Outcome → σ → Prop} {pool : Pool}
  {s s' : σ}

theorem Pool.Good.later (h : pool.Good e R jobs spec s) (hs : R.holds s s') :
    pool.Good e R jobs spec s' where
  pending j hj := (h.pending j hj).later hs
  working w hw := (h.working w hw).later hs
  ended := by
    obtain ⟨ended, hresults, hspec, hsub, hperm⟩ := h.ended
    refine ⟨ended, hresults, fun d hd s'' hs' => hspec d hd s'' (R.trans hs hs'), hsub, ?_⟩
    intro hall
    -- A token that has not fired by now had not fired before.
    refine hperm (hall.imp_right ?_)
    intro hf
    by_contra hfired
    exact absurd (R.fired hs (by simpa using hfired)) (by simp [hf])

theorem Pool.Good.start {crew : Crew} (h : ∀ j ∈ jobs, wp R (spec j) (e.task j) s) :
    Pool.Good e R jobs spec { crew, pending := jobs } s where
  pending := h
  working := by simp
  ended := ⟨[], rfl, by simp, by simpa [Pool.open] using List.Subperm.refl jobs, by simp [Pool.open]⟩

theorem Pool.Good.brought {crew : Crew} {rs : List (Row × Outcome)}
    (h : Pool.Good e R jobs spec ⟨crew, [], [], rs⟩ s) : Brought k crew jobs spec rs s := by
  obtain ⟨ended, hresults, hspec, hsub, hperm⟩ := h.ended
  exact ⟨ended, hresults, fun d hd => hspec d hd s (R.refl s), by simpa [Pool.open] using hsub,
    by simpa [Pool.open] using hperm⟩

theorem Pool.Step.good {pool' : Pool} {t : List Event} (step : pool.Step e k s t pool' s')
    (h : pool.Good e R jobs spec s) : R.holds s s' ∧ pool'.Good e R jobs spec s' := by
  obtain ⟨ended, hresults, hspec, hsub, hperm⟩ := h.ended
  cases step with
  | @begin crew j pending ws rs _ _ _ =>
    -- Beginning a job moves it among those under way, so the open jobs are the same list.
    have hopen : Pool.open ⟨crew, j :: pending, ws, rs⟩ =
        Pool.open ⟨crew, pending, ws ++ [⟨j, .ready (e.task j)⟩], rs⟩ := by simp [Pool.open]
    rw [hopen] at hsub hperm
    refine ⟨R.refl s, ⟨fun i hi => h.pending i (List.mem_cons_of_mem _ hi), ?_,
      ended, hresults, hspec, hsub, hperm⟩⟩
    intro w hw
    rcases List.mem_append.1 hw with hw | hw
    · exact h.working w hw
    · obtain rfl := List.mem_singleton.1 hw
      exact h.pending j List.mem_cons_self
  | @close pending ws rs _ hf =>
    -- Jobs are dropped here, so no more than a part of them ends, but then the token has fired.
    refine ⟨R.refl s, ⟨fun i hi => absurd hi List.not_mem_nil, h.working,
      ended, hresults, hspec, ?_, ?_⟩⟩
    · refine List.Subperm.trans (List.Sublist.subperm ?_) hsub
      simp [Pool.open]
    · rintro (hcrew | hclear)
      · cases hcrew
      · simp [hf] at hclear
  | @work crew pending ws ws' j strand strand' rs _ _ _ hstep =>
    -- One job takes a step within the promise, and all others stay as good as they were.
    have hj := h.working ⟨j, strand⟩ (by simp)
    obtain ⟨hs, hj'⟩ := hstep.wp hj
    have hlater := h.later hs
    refine ⟨hs, ⟨hlater.pending, ?_, ?_⟩⟩
    · intro w hw
      simp only [List.mem_append, List.mem_cons] at hw
      rcases hw with hw | rfl | hw
      · exact hlater.working w (by simp [hw])
      · exact hj'
      · exact hlater.working w (by simp [hw])
    · simpa [Pool.open] using hlater.ended
  | @leave crew pending ws ws' j outcome rs _ =>
    have hj : ∀ s', R.holds s s' → spec j outcome s' :=
      h.working ⟨j, .ready (.done outcome)⟩ (by simp)
    -- The job moves from those under way to those that have ended.
    have hopen : ((ended ++ [(j, outcome)]).map Prod.fst ++ Pool.open
          ⟨crew, pending, ws ++ ws', rs ++ [(j.row, outcome)]⟩).Perm
        (ended.map Prod.fst ++
          Pool.open ⟨crew, pending, ws ++ ⟨j, .ready (.done outcome)⟩ :: ws', rs⟩) := by
      simp only [Pool.open, List.map_append, List.map_cons, List.map_nil, List.append_assoc,
        List.cons_append, List.nil_append]
      exact List.Perm.append_left _ List.perm_middle.symm
    refine ⟨R.refl s, ⟨h.pending, fun w hw => h.working w ?_, ended ++ [(j, outcome)], ?_, ?_,
      hopen.subperm.trans hsub, fun hall => hopen.trans (hperm hall)⟩⟩
    · simp only [List.mem_append, List.mem_cons] at hw ⊢
      exact hw.imp_right .inr
    · simp only at hresults
      simp [hresults]
    · intro d hd
      rcases List.mem_append.1 hd with hd | hd
      · exact hspec d hd
      · obtain rfl := List.mem_singleton.1 hd
        exact hj
  | @lose pending ws ws' j c next rs _ _ hnone =>
    exact absurd hnone (Strand.wp.not_broken (h.working ⟨j, .waiting c next⟩ (by simp)))

end Pool

/-! ## Plans -/

/-- What may have changed while nobody took a step. -/
abbrev Drifts (k : Setting σ) : σ → σ → Prop :=
  Relation.ReflTransGen k.drift

theorem Promise.drifts (R : Promise k) {s s' : σ} (h : Drifts k s s') : R.holds s s' := by
  induction h with
  | refl => exact R.refl s
  | tail _ hdrift ih => exact R.trans ih (R.drift hdrift)

/-- The weakest precondition of a plan under a promise. While the run itself has the turn nothing but drift
can come between its steps, and while it waits for a call or a pool, a promise of that time alone is kept. -/
def Plan.wp (e : Engine) (R : Promise k) (Q : α → σ → Prop) : Plan α → σ → Prop
  | .done a, s => ∀ s', Drifts k s s' → Q a s'
  | .look next, s => ∀ s', Drifts k s s' → wp e R Q (next (k.world.fired s')) s'
  | .call c next, s => ∃ R' : Promise k, R'.Implies R ∧ Calls R' c (fun reply s' => wp e R Q (next reply) s') s
  | .pool crew jobs next, s => ∃ R' : Promise k, R'.Implies R ∧ ∃ spec : Job → Outcome → σ → Prop,
      (∀ j ∈ jobs, Engine.wp R' (spec j) (e.task j) s) ∧
      ∀ results s', R'.holds s s' → Brought k crew jobs spec results s' → wp e R Q (next results) s'

/-- The weakest precondition of a run under way. -/
def Config.wp (e : Engine) (R : Promise k) (Q : α → σ → Prop) : Config α → σ → Prop
  | .ready p, s => p.wp e R Q s
  | .waiting c next, s => ∃ R' : Promise k, R'.Implies R ∧
      Awaits R' c (fun reply s' => (next reply).wp e R Q s') s
  | .pool P next, s => ∃ R' : Promise k, R'.Implies R ∧ ∃ jobs spec, P.Good e R' jobs spec s ∧
      ∀ results s', R'.holds s s' → Brought k P.crew jobs spec results s' → (next results).wp e R Q s'
  | .broken, _ => False

section Plan

variable {e : Engine} {R R' : Promise k} {Q : α → σ → Prop} {p : Plan α} {s s' : σ}

theorem Plan.wp.later (h : p.wp e R Q s) (hs : Drifts k s s') : p.wp e R Q s' := by
  cases p with
  | done a =>
    intro s'' hs'
    exact h s'' (hs.trans hs')
  | look next =>
    intro s'' hs'
    exact h s'' (hs.trans hs')
  | call c next =>
    obtain ⟨R', hR, hcalls⟩ := h
    exact ⟨R', hR, fun s'' hs' => hcalls s'' (R'.trans (R'.drifts hs) hs')⟩
  | pool crew jobs next =>
    obtain ⟨R', hR, spec, hjobs, hnext⟩ := h
    exact ⟨R', hR, spec, fun j hj => (hjobs j hj).later (R'.drifts hs),
      fun results s'' hs' => hnext results s'' (R'.trans (R'.drifts hs) hs')⟩

theorem Plan.wp.bind {Q : β → σ → Prop} {f : α → Plan β}
    (h : p.wp e R (fun a s' => (f a).wp e R Q s') s) : (p.bind f).wp e R Q s := by
  induction p generalizing s with
  | done a => exact h s .refl
  | look next ih =>
    intro s' hs
    exact ih _ (h s' hs)
  | call c next ih =>
    obtain ⟨R', hR, hcalls⟩ := h
    exact ⟨R', hR, hcalls.mono fun reply s' hnext => ih reply hnext⟩
  | pool crew jobs next ih =>
    obtain ⟨R', hR, spec, hjobs, hnext⟩ := h
    exact ⟨R', hR, spec, hjobs, fun results s' hs hb => ih results (hnext results s' hs hb)⟩

theorem Plan.wp.fired {f : Bool → Plan α}
    (h : ∀ s', Drifts k s s' → (f (k.world.fired s')).wp e R Q s') : (Plan.fired.bind f).wp e R Q s := h

/-- A task of the run itself meets as a plan what it meets as a task. -/
theorem Plan.wp.ofTask {p : Task α} (h : Engine.wp R' Q p s) (hR : R'.Implies R) :
    (Plan.ofTask p).wp e R Q s := by
  induction p generalizing s with
  | done a =>
    intro s' hs
    exact h s' (R'.drifts hs)
  | look next ih =>
    intro s' hs
    exact ih _ (h s' (R'.drifts hs))
  | call c next ih => exact ⟨R', hR, Calls.mono h fun reply s' hnext => ih reply hnext⟩

theorem Plan.wp.looked (h : p.wp e R Q s) : (p.looked (k.world.fired s)).wp e R Q s := by
  cases p with
  | done a => exact h
  | look next => exact h s .refl
  | call c next => exact h
  | pool crew jobs next => exact h

theorem Config.wp.later {c : Config α} (h : c.wp e R Q s) (hs : Drifts k s s') : c.wp e R Q s' := by
  cases c with
  | ready p => exact Plan.wp.later h hs
  | waiting c next =>
    obtain ⟨R', hR, hawaits⟩ := h
    exact ⟨R', hR, fun s'' hs' => hawaits s'' (R'.trans (R'.drifts hs) hs')⟩
  | pool P next =>
    obtain ⟨R', hR, jobs, spec, hgood, hnext⟩ := h
    exact ⟨R', hR, jobs, spec, hgood.later (R'.drifts hs),
      fun results s'' hs' => hnext results s'' (R'.trans (R'.drifts hs) hs')⟩
  | broken => exact h.elim

theorem Pool.Step.crew_eq {pool pool' : Pool} {t : List Event} (step : pool.Step e k s t pool' s') :
    pool'.crew = pool.crew := by
  cases step <;> rfl

theorem Config.Step.wp {c c' : Config α} {t : List Event} (step : Config.Step e k c s t c' s')
    (h : c.wp e R Q s) : R.holds s s' ∧ c'.wp e R Q s' := by
  cases step with
  | drift hdrift => exact ⟨R.drift hdrift, h.later (.single hdrift)⟩
  | look _ => exact ⟨R.refl s, h s .refl⟩
  | start hp =>
    have hlooked := Plan.wp.looked h
    rw [hp] at hlooked
    obtain ⟨R', hR, hcalls⟩ := hlooked
    exact ⟨hR _ _ (hcalls s (R'.refl s)).1, R', hR, (hcalls s (R'.refl s)).2⟩
  | finish hfinish =>
    obtain ⟨R', hR, hawaits⟩ := h
    -- The precondition promises some reply in this state, and this is the one.
    obtain ⟨⟨reply, s'', hfinish', hs, hnext⟩, -⟩ := hawaits s (R'.refl s)
    rw [hfinish, Prod.mk.injEq, Option.some.injEq] at hfinish'
    obtain ⟨rfl, rfl⟩ := hfinish'
    exact ⟨hR _ _ hs, hnext⟩
  | giveUp hf =>
    obtain ⟨R', hR, hawaits⟩ := h
    obtain ⟨hs, hnext⟩ := (hawaits s (R'.refl s)).2 hf
    exact ⟨hR _ _ hs, hnext⟩
  | enter =>
    obtain ⟨R', hR, spec, hjobs, hnext⟩ := h
    exact ⟨R.refl s, R', hR, _, spec, .start hjobs, hnext⟩
  | work hstep =>
    obtain ⟨R', hR, jobs, spec, hgood, hnext⟩ := h
    obtain ⟨hs, hgood'⟩ := hstep.good hgood
    refine ⟨hR _ _ hs, R', hR, jobs, spec, hgood', ?_⟩
    intro results s'' hs' hb
    exact hnext results s'' (R'.trans hs hs') (hstep.crew_eq ▸ hb)
  | leave =>
    obtain ⟨R', hR, jobs, spec, hgood, hnext⟩ := h
    exact ⟨R.refl s, hnext _ s (R'.refl s) hgood.brought⟩
  | breakDown hnone =>
    obtain ⟨R', hR, hawaits⟩ := h
    obtain ⟨⟨reply, s'', hfinish, -⟩, -⟩ := hawaits s (R'.refl s)
    rw [hnone] at hfinish
    cases hfinish
  | @collapse jobs ws ws' j c next rs after _ _ hnone =>
    obtain ⟨R', hR, jobs, spec, hgood, -⟩ := h
    exact absurd hnone (Strand.wp.not_broken (hgood.working ⟨j, .waiting c next⟩ (by simp)))

theorem Config.Steps.wp {c c' : Config α} {t : List Event} (steps : Config.Steps e k c s t c' s')
    (h : c.wp e R Q s) : R.holds s s' ∧ c'.wp e R Q s' := by
  induction steps with
  | refl => exact ⟨R.refl _, h⟩
  | head step _ ih =>
    obtain ⟨hs, h'⟩ := step.wp h
    obtain ⟨hs', h''⟩ := ih h'
    exact ⟨R.trans hs hs', h''⟩

/-- A run that comes to its end has kept the promise and meets the postcondition. -/
theorem Plan.Executes.wp {a : α} {t : List Event} (run : p.Executes e k s t a s') (h : p.wp e R Q s) :
    R.holds s s' ∧ Q a s' := by
  obtain ⟨hs, hdone⟩ := Config.Steps.wp run h
  exact ⟨hs, hdone s' .refl⟩

end Plan

end Geocoding.Engine
