import Geocoding.Engine.Bulk
import Geocoding.Proofs.Interleaving.Completion
import Mathlib.Data.List.Forall2

/-!
# Runs side by side

To compare two runs, one is followed by the other: whatever step the first one takes, the second one takes none
or some that show the same, as far as it is to be shown, and both are alike again. What makes tasks alike is left
open here; a *coupling* says it, and has to say how a single task is followed. From there on it is about pools
and plans: whatever a run does, in whatever order, a coupled run can do as well.
-/

namespace Geocoding.Engine

variable {α β γ δ σ : Type}

/-- A run may wait for as long as time passes. -/
theorem Config.Steps.of_drifts {e : Engine} {k : Setting σ} {c : Config α} {s s' : σ} (h : Drifts k s s') :
    Config.Steps e k c s [] c s' := by
  induction h with
  | refl => exact .refl
  | tail _ hdrift ih => exact ih.trans (.single (.drift hdrift))

/-! ## Couplings -/

/-- From states that are near each other, a call starts, ends and is given up alike. -/
structure Mirrors (k : Setting σ) (near : σ → σ → Prop) (c : Call) : Prop where
  start : ∀ {s s'}, near s s' → near (k.world.start c s).2 (k.world.start c s').2
  finish : ∀ {s s' reply s₁}, near s s' → k.world.finish c s = (reply, s₁) →
    ∃ s₁', k.world.finish c s' = (reply, s₁') ∧ near s₁ s₁'
  abandon : ∀ {s s'}, near s s' → k.world.fired s = true → near (k.world.abandon c s) (k.world.abandon c s')

/-- The job for another row. -/
def Job.onRow (f : Row → Row) (j : Job) : Job :=
  ⟨f j.row, j.stage⟩

/-- What a run of the first engine has in common with the run of the second one that follows it. -/
structure Coupling (e e' : Engine) (k : Setting σ) where
  /-- The states of the two runs. -/
  near : σ → σ → Prop
  /-- The row of the second run for a row of the first one. -/
  row : Row → Row
  /-- What of an event has to be the same in both runs, if anything. -/
  shown : Event → Option Event
  /-- The tasks under way for a job. -/
  keeps : Job → Strand Outcome → Strand Outcome → Prop
  providers : e'.providers = e.providers
  concurrency : e'.concurrency = e.concurrency
  chunkSize : e'.chunkSize = e.chunkSize
  index : ∀ r, (row r).index = r.index
  submitted : ∀ r, Engine.submitted (row r) = Engine.submitted r
  fired : ∀ {s s'}, near s s' → k.world.fired s' = k.world.fired s
  drift : ∀ {s s' s₁}, near s s' → k.drift s s₁ → ∃ s₁', Drifts k s' s₁' ∧ near s₁ s₁'
  submit : ∀ position rows, Mirrors k near (.submit position rows)
  begun : ∀ j : Job, shown (.begun (j.onRow row)) = shown (.begun j)
  begin : ∀ j : Job, keeps j (.ready (e.task j)) (.ready (e'.task (j.onRow row)))
  /-- A step of the first task is followed by steps of the second one. -/
  step : ∀ {j strand strand' strand₁ s s' s₁ t}, keeps j strand strand' → near s s' →
    Strand.Step k (some j) strand s t strand₁ s₁ →
      ∃ t' strand₁' s₁', Strand.Steps k (some (j.onRow row)) strand' s' t' strand₁' s₁' ∧
        keeps j strand₁ strand₁' ∧ near s₁ s₁' ∧ t'.filterMap shown = t.filterMap shown
  /-- If the first task is done, the second one comes to the same outcome. -/
  leave : ∀ {j outcome strand' s s'}, keeps j (.ready (.done outcome)) strand' → near s s' →
    ∃ t' s₁', Strand.Steps k (some (j.onRow row)) strand' s' t' (.ready (.done outcome)) s₁' ∧
      near s s₁' ∧ t'.filterMap shown = []
  /-- If the first task breaks down, so does the second one. -/
  lose : ∀ {j c next strand' s s' s₁}, keeps j (.waiting c next) strand' → near s s' →
    k.world.finish c s = (none, s₁) →
      ∃ c' next' s₁', strand' = .waiting c' next' ∧ k.world.finish c' s' = (none, s₁') ∧ near s₁ s₁' ∧
        shown (.brokenDown (some (j.onRow row)) c') = shown (.brokenDown (some j) c)

/-- What a run has come to, if it has come to its end. -/
def Config.outcome? : Config α → Option α
  | .ready (.done a) => some a
  | _ => none

namespace Coupling

variable {e e' : Engine} {k : Setting σ} (K : Coupling e e' k)

/-- The job of the second run for a job of the first one. -/
def job (j : Job) : Job :=
  j.onRow K.row

/-- What is said of rows of the first run, about those of the second one. -/
def rows (results : List (Row × γ)) : List (Row × γ) :=
  results.map fun w => (K.row w.1, w.2)

/-- Plans alike: where the first one comes to an outcome, the second one comes to its counterpart. -/
inductive Plans (f : α → β) : Plan α → Plan β → Prop
  | done (a : α) : Plans f (.done a) (.done (f a))
  | look {next : Bool → Plan α} {next' : Bool → Plan β} (h : ∀ fired, Plans f (next fired) (next' fired)) :
      Plans f (.look next) (.look next')
  | call {c : Call} {next : collaborators.Reply c → Plan α} {next' : collaborators.Reply c → Plan β}
      (hc : Mirrors k K.near c) (h : ∀ reply, Plans f (next reply) (next' reply)) :
      Plans f (.call c next) (.call c next')
  | pool {crew : Crew} {jobs : List Job} {next : List (Row × Outcome) → Plan α}
      {next' : List (Row × Outcome) → Plan β} (h : ∀ results, Plans f (next results) (next' (K.rows results))) :
      Plans f (.pool crew jobs next) (.pool crew (jobs.map K.job) next')

/-- Jobs under way alike. -/
structure Workers (w w' : Worker) : Prop where
  job : w'.job = K.job w.job
  keeps : K.keeps w.job w.strand w'.strand

/-- Pools alike. -/
structure Pools (P P' : Pool) : Prop where
  crew : P'.crew = P.crew
  pending : P'.pending = P.pending.map K.job
  working : List.Forall₂ K.Workers P.working P'.working
  results : P'.results = K.rows P.results

/-- Runs alike. -/
inductive Configs (f : α → β) : Config α → Config β → Prop
  | ready {p : Plan α} {p' : Plan β} (h : K.Plans f p p') : Configs f (.ready p) (.ready p')
  | waiting {c : Call} {next : collaborators.Reply c → Plan α} {next' : collaborators.Reply c → Plan β}
      (hc : Mirrors k K.near c) (h : ∀ reply, K.Plans f (next reply) (next' reply)) :
      Configs f (.waiting c next) (.waiting c next')
  | pool {P P' : Pool} {next : List (Row × Outcome) → Plan α} {next' : List (Row × Outcome) → Plan β}
      (hP : K.Pools P P') (h : ∀ results, K.Plans f (next results) (next' (K.rows results))) :
      Configs f (.pool P next) (.pool P' next')
  | broken : Configs f .broken .broken

variable {K}

/-! ## Plans -/

section Plans

variable {f : α → β} {p : Plan α} {p' : Plan β}

theorem Plans.bind {g : γ → δ} {q : α → Plan γ} {q' : β → Plan δ} (h : K.Plans f p p')
    (hq : ∀ a, K.Plans g (q a) (q' (f a))) : K.Plans g (p.bind q) (p'.bind q') := by
  induction h with
  | done a => exact hq a
  | look _ ih => exact .look ih
  | call hc _ ih => exact .call hc ih
  | pool _ ih => exact .pool ih

theorem Plans.isCall (h : K.Plans f p p') : p'.isCall = p.isCall := by
  cases h <;> rfl

/-- A look at the token shows both plans the same. -/
theorem Plans.looked (h : K.Plans f p p') (fired : Bool) : K.Plans f (p.looked fired) (p'.looked fired) := by
  cases h with
  | done a => exact .done a
  | look h => exact h fired
  | call hc h => exact .call hc h
  | pool h => exact .pool h

end Plans

/-! ## Pools -/

/-- A list of pairs is split on both sides where it is split on one. -/
theorem forall₂_split {R : γ → δ → Prop} {l₁ l₂ : List γ} {a : γ} {l : List δ}
    (h : List.Forall₂ R (l₁ ++ a :: l₂) l) :
    ∃ k₁ b k₂, l = k₁ ++ b :: k₂ ∧ List.Forall₂ R l₁ k₁ ∧ R a b ∧ List.Forall₂ R l₂ k₂ := by
  induction l₁ generalizing l with
  | nil =>
    cases h with
    | cons hab h₂ => exact ⟨[], _, _, rfl, .nil, hab, h₂⟩
  | cons c l₁ ih =>
    cases h with
    | cons hcd h =>
      obtain ⟨k₁, b, k₂, rfl, h₁, hab, h₂⟩ := ih h
      exact ⟨_ :: k₁, b, k₂, rfl, .cons hcd h₁, hab, h₂⟩

theorem filterMap_shown {event event' : Event} (h : K.shown event' = K.shown event) :
    [event'].filterMap K.shown = [event].filterMap K.shown := by
  rw [List.filterMap_cons, List.filterMap_cons, h]

variable {s s' s₁ : σ} {t : List Event}

theorem Pools.step {P P' P₁ : Pool} (h : K.Pools P P') (hs : K.near s s') (step : P.Step e k s t P₁ s₁) :
    ∃ t' P₁' s₁', (∀ next : List (Row × Outcome) → Plan β,
        Config.Steps e' k (.pool P' next) s' t' (.pool P₁' next) s₁') ∧
      K.Pools P₁ P₁' ∧ K.near s₁ s₁' ∧ t'.filterMap K.shown = t.filterMap K.shown := by
  obtain ⟨crew', pending', ws', rs'⟩ := P'
  obtain ⟨hcrew, hpending, hworking, hresults⟩ := h
  cases step with
  | @begin crew j jobs ws rs _ free clear =>
    obtain rfl : crew' = crew := hcrew
    obtain rfl : pending' = K.job j :: jobs.map K.job := hpending
    refine ⟨[.begun (K.job j)], _, s', fun next => .single (.work (.begin ?_ ?_)),
      ⟨rfl, rfl, ?_, hresults⟩, hs, filterMap_shown (K.begun j)⟩
    · rw [K.concurrency, ← hworking.length_eq]
      exact free
    · rw [K.fired hs]
      exact clear
    · exact List.rel_append hworking (.cons ⟨rfl, K.begin j⟩ .nil)
  | @close jobs ws rs _ hfired =>
    obtain rfl : crew' = .workers := hcrew
    exact ⟨[], _, s', fun next => .single (.work (.close (K.fired hs ▸ hfired))), ⟨rfl, rfl, hworking, hresults⟩,
      hs, rfl⟩
  | @work crew jobs before after j strand strand₁ rs _ _ _ hstep =>
    obtain ⟨before', ⟨j', strand'⟩, after', rfl, hbefore, ⟨hjob, hkeeps⟩, hafter⟩ := forall₂_split hworking
    obtain rfl : j' = K.job j := hjob
    obtain ⟨t', strand₁', s₁', steps, hkeeps₁, hs₁, ht⟩ := K.step hkeeps hs hstep
    exact ⟨t', _, s₁', fun next => steps.inPool,
      ⟨hcrew, hpending, List.rel_append hbefore (.cons ⟨rfl, hkeeps₁⟩ hafter), hresults⟩, hs₁, ht⟩
  | @leave crew jobs before after j outcome rs _ =>
    obtain ⟨before', ⟨j', strand'⟩, after', rfl, hbefore, ⟨hjob, hkeeps⟩, hafter⟩ := forall₂_split hworking
    obtain rfl : j' = K.job j := hjob
    obtain ⟨t', s₁', steps, hs₁, ht⟩ := K.leave hkeeps hs
    refine ⟨t' ++ [], _, s₁', fun next => steps.inPool.trans (.single (.work .leave)),
      ⟨hcrew, hpending, List.rel_append hbefore hafter, ?_⟩, hs₁, by simpa using ht⟩
    simp only at hresults
    simp [hresults, rows, Job.onRow]
  | @lose jobs before after j c next rs _ _ hnone =>
    obtain ⟨before', ⟨j', strand'⟩, after', rfl, hbefore, ⟨hjob, hkeeps⟩, hafter⟩ := forall₂_split hworking
    obtain rfl : j' = K.job j := hjob
    obtain rfl : crew' = .workers := hcrew
    obtain ⟨c', next', s₁', rfl, hnone', hs₁, ht⟩ := K.lose hkeeps hs hnone
    exact ⟨_, _, s₁', fun next => .single (.work (.lose hnone')),
      ⟨rfl, hpending, List.rel_append hbefore hafter, hresults⟩, hs₁, filterMap_shown ht⟩

/-! ## Runs -/

/-- A step of a run is followed by steps of a run alike. -/
theorem Configs.step {f : α → β} {c c₁ : Config α} {c' : Config β} (h : K.Configs f c c') (hs : K.near s s')
    (step : Config.Step e k c s t c₁ s₁) :
    ∃ t' c₁' s₁', Config.Steps e' k c' s' t' c₁' s₁' ∧ K.Configs f c₁ c₁' ∧ K.near s₁ s₁' ∧
      t'.filterMap K.shown = t.filterMap K.shown := by
  -- Each kind of step is followed by one of the same kind; only drifts and steps of a job may take several.
  cases step with
  | drift hdrift =>
    obtain ⟨s₁', hdrifts, hs₁⟩ := K.drift hs hdrift
    exact ⟨[], c', s₁', .of_drifts hdrifts, h, hs₁, rfl⟩
  | look hcall =>
    cases h with
    | ready h =>
      cases h with
      | look h =>
        rw [← K.fired hs] at hcall ⊢
        exact ⟨[], _, s', .single (.look ((h _).isCall.trans hcall)), .ready (h _), hs, rfl⟩
  | @start p c next _ hp =>
    cases h with
    | ready h =>
      have hlooked := h.looked (k.world.fired s)
      rw [hp] at hlooked
      generalize hp' : Plan.looked (k.world.fired s) _ = q' at hlooked
      cases hlooked with
      | call hc h =>
        rw [← K.fired hs] at hp'
        exact ⟨_, _, _, .single (.start hp'), .waiting hc h, hc.start hs, rfl⟩
  | @finish c next reply _ _ hfinish =>
    cases h with
    | waiting hc h =>
      obtain ⟨s₁', hfinish', hs₁⟩ := hc.finish hs hfinish
      exact ⟨_, _, s₁', .single (.finish hfinish'), .ready (h reply), hs₁, rfl⟩
  | giveUp hfired =>
    cases h with
    | waiting hc h => exact ⟨_, _, _, .single (.giveUp (K.fired hs ▸ hfired)), .ready (h _), hc.abandon hs hfired, rfl⟩
  | enter =>
    cases h with
    | ready h =>
      cases h with
      | pool h => exact ⟨[], _, s', .single .enter, .pool ⟨rfl, rfl, .nil, rfl⟩ h, hs, rfl⟩
  | work hstep =>
    cases h with
    | pool hP h =>
      obtain ⟨t', P₁', s₁', steps, hP₁, hs₁, ht⟩ := hP.step hs hstep
      exact ⟨t', _, s₁', steps _, .pool hP₁ h, hs₁, ht⟩
  | leave =>
    cases h with
    | @pool _ P' _ _ hP h =>
      obtain ⟨crew', pending', ws', rs'⟩ := P'
      obtain ⟨hcrew, hpending, hworking, hresults⟩ := hP
      -- Where one pool has nothing left to do, neither has the other.
      obtain rfl : pending' = [] := hpending
      obtain rfl : ws' = [] := List.forall₂_nil_left_iff.1 hworking
      obtain rfl : rs' = _ := hresults
      exact ⟨[], _, s', .single .leave, .ready (h _), hs, rfl⟩
  | breakDown hnone =>
    cases h with
    | waiting hc h =>
      obtain ⟨s₁', hnone', hs₁⟩ := hc.finish hs hnone
      exact ⟨_, _, s₁', .single (.breakDown hnone'), .broken, hs₁, rfl⟩
  | collapse hnone =>
    cases h with
    | @pool _ P' _ _ hP h =>
      obtain ⟨crew', pending', ws', rs'⟩ := P'
      obtain ⟨hcrew, hpending, hworking, hresults⟩ := hP
      obtain ⟨before', ⟨j', strand'⟩, after', rfl, hbefore, ⟨hjob, hkeeps⟩, hafter⟩ := forall₂_split hworking
      obtain rfl : j' = K.job _ := hjob
      obtain rfl : crew' = .itself := hcrew
      obtain ⟨c', next', s₁', rfl, hnone', hs₁, ht⟩ := K.lose hkeeps hs hnone
      exact ⟨_, _, s₁', .single (.collapse hnone'), .broken, hs₁, filterMap_shown ht⟩

theorem Configs.outcome? {f : α → β} {c : Config α} {c' : Config β} (h : K.Configs f c c') :
    c'.outcome? = c.outcome?.map f := by
  cases h with
  | ready h => cases h <;> rfl
  | waiting => rfl
  | pool => rfl
  | broken => rfl

/-- Whatever a run does, a run alike can do as well. -/
theorem Configs.steps {f : α → β} {c c₁ : Config α} {c' : Config β} (h : K.Configs f c c') (hs : K.near s s')
    (steps : Config.Steps e k c s t c₁ s₁) :
    ∃ t' c₁' s₁', Config.Steps e' k c' s' t' c₁' s₁' ∧ K.Configs f c₁ c₁' ∧ K.near s₁ s₁' ∧
      t'.filterMap K.shown = t.filterMap K.shown := by
  induction steps generalizing c' s' with
  | refl => exact ⟨[], c', s', .refl, h, hs, rfl⟩
  | head step _ ih =>
    obtain ⟨t', c₁', s₁', steps, h₁, hs₁, ht⟩ := h.step hs step
    obtain ⟨t'', c₂', s₂', steps', h₂, hs₂, ht'⟩ := ih h₁ hs₁
    exact ⟨t' ++ t'', c₂', s₂', steps.trans steps', h₂, hs₂, by simp [ht, ht']⟩

end Coupling

/-! ## Runs of one task -/

section OneTask

variable {e : Engine} {k : Setting σ}

/-- A task under way as a run. -/
def Config.ofStrand : Strand α → Config α
  | .ready p => .ready (.ofTask p)
  | .waiting c next => .waiting c fun reply => .ofTask (next reply)

theorem Plan.isCall_ofTask (p : Task α) : (ofTask p).isCall = p.isCall := by
  cases p <;> rfl

theorem Plan.looked_ofTask (p : Task α) (fired : Bool) : (ofTask p).looked fired = ofTask (p.looked fired) := by
  cases p <;> rfl

theorem Strand.Step.ofStrand {strand strand' : Strand α} {s s' : σ} {t : List Event}
    (step : Strand.Step k none strand s t strand' s') :
    Config.Step e k (.ofStrand strand) s t (.ofStrand strand') s' := by
  cases step with
  | look h => exact .look ((Plan.isCall_ofTask _).trans h)
  | start h => exact .start ((Plan.looked_ofTask _ _).trans (congrArg Plan.ofTask h))
  | finish h => exact .finish h
  | giveUp h => exact .giveUp h

theorem Strand.Steps.ofStrand {strand strand' : Strand α} {s s' : σ} {t : List Event}
    (steps : Strand.Steps k none strand s t strand' s') :
    Config.Steps e k (.ofStrand strand) s t (.ofStrand strand') s' := by
  induction steps with
  | refl => exact .refl
  | head step _ ih => exact .head step.ofStrand ih

/-- All that such a run does is what its task does, or time passes, or it breaks down. -/
theorem Config.Step.of_ofStrand {strand : Strand α} {c : Config α} {s s' : σ} {t : List Event}
    (step : Config.Step e k (.ofStrand strand) s t c s') :
    (t = [] ∧ c = .ofStrand strand ∧ k.drift s s') ∨
      (∃ strand', Strand.Step k none strand s t strand' s' ∧ c = .ofStrand strand') ∨ c = .broken := by
  generalize hc : Config.ofStrand strand = c₀ at step
  cases step with
  | drift h => exact .inl ⟨rfl, rfl, h⟩
  | look h =>
    cases strand with
    | ready p =>
      cases p with
      | look next =>
        cases hc
        exact .inr (.inl ⟨_, .look ((Plan.isCall_ofTask _).symm.trans h), rfl⟩)
      | _ => cases hc
    | waiting => cases hc
  | @start p c next _ h =>
    cases strand with
    | ready q =>
      cases hc
      rw [Plan.looked_ofTask] at h
      generalize hq : q.looked (k.world.fired s) = q' at h
      cases q' with
      | call c' next' =>
        cases h
        exact .inr (.inl ⟨_, .start hq, rfl⟩)
      | _ => cases h
    | waiting => cases hc
  | finish h =>
    cases strand with
    | ready => cases hc
    | waiting c next =>
      cases hc
      exact .inr (.inl ⟨_, .finish h, rfl⟩)
  | giveUp h =>
    cases strand with
    | ready => cases hc
    | waiting c next =>
      cases hc
      exact .inr (.inl ⟨_, .giveUp h, rfl⟩)
  | enter =>
    cases strand with
    | ready p => cases p <;> cases hc
    | waiting => cases hc
  | work _ => cases strand <;> cases hc
  | leave => cases strand <;> cases hc
  | breakDown _ => exact .inr (.inr rfl)
  | collapse _ => exact .inr (.inr rfl)

/-- A run that has broken down goes no further. -/
theorem Config.Steps.of_broken {c : Config α} {s s' : σ} {t : List Event}
    (steps : Config.Steps e k .broken s t c s') : c = .broken := by
  generalize hc : (Config.broken : Config α) = c₀ at steps
  induction steps with
  | refl => rfl
  | head step _ ih =>
    subst hc
    cases step with
    | drift _ => exact ih rfl

end OneTask

end Geocoding.Engine
