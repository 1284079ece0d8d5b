import Geocoding.Proofs.Interleaving.Completion
import Mathlib.Data.List.Forall2
import Mathlib.Data.List.Perm.Basic

/-!
# What runs show of themselves

Where nothing disturbs a run, what it shows of itself can be read off its plan: a task shows its own calls
and their replies, and a pool shows what its jobs show, in some order. The states that a run passes through
do not matter for it.
-/

namespace Geocoding.Engine

variable {α β σ : Type}

/-- A run is never called off, and every call comes to a reply. -/
structure Replying (k : Setting σ) : Prop where
  clear : ∀ s, k.world.fired s = false
  reply : ∀ c s, ∃ reply s', k.world.finish c s = (some reply, s')

/-- Nothing disturbs a run: the token never fires, no call breaks down, and none is reported as cancelled. -/
structure Undisturbed (k : Setting σ) : Prop where
  clear : ∀ s, k.world.fired s = false
  reply : ∀ c s, ∃ reply s', k.world.finish c s = (some reply, s') ∧ reply ≠ .error .cancelled

theorem Undisturbed.replying {k : Setting σ} (hk : Undisturbed k) : Replying k where
  clear := hk.clear
  reply c s := by
    obtain ⟨reply, s', hfinish, -⟩ := hk.reply c s
    exact ⟨reply, s', hfinish⟩

/-! ## Tasks -/

/-- A task shows a log and comes to an outcome. -/
def Logs (who : Option Job) : Task α → List Event → α → Prop
  | .done a', t, a => t = [] ∧ a' = a
  | .look next, t, a => Logs who (next false) t a
  | .call c next, t, a => ∃ reply t', reply ≠ .error .cancelled ∧
      t = .started who c :: .answered who c reply :: t' ∧ Logs who (next reply) t' a

/-- What is left of a task under way shows a log and comes to an outcome. -/
def Strand.Logs (who : Option Job) : Strand α → List Event → α → Prop
  | .ready p, t, a => Engine.Logs who p t a
  | .waiting c next, t, a => ∃ reply t', reply ≠ .error .cancelled ∧
      t = .answered who c reply :: t' ∧ Engine.Logs who (next reply) t' a

theorem Logs.bind {who : Option Job} {p : Task α} {f : α → Task β} {t : List Event} {b : β}
    (h : Logs who (p.bind f) t b) : ∃ t₁ a t₂, t = t₁ ++ t₂ ∧ Logs who p t₁ a ∧ Logs who (f a) t₂ b := by
  induction p generalizing t with
  | done a => exact ⟨[], a, t, rfl, ⟨rfl, rfl⟩, h⟩
  | look next ih => exact ih false h
  | call c next ih =>
    obtain ⟨reply, t', hreply, rfl, h⟩ := h
    obtain ⟨t₁, a, t₂, rfl, h₁, h₂⟩ := ih reply h
    exact ⟨_, a, t₂, rfl, ⟨reply, t₁, hreply, rfl, h₁⟩, h₂⟩

theorem Logs.of_looked {who : Option Job} {p : Task α} {t : List Event} {a : α} (h : Logs who (p.looked false) t a) :
    Logs who p t a := by
  cases p <;> exact h

/-- A guarded call is made, and not reported as cancelled. -/
theorem Logs.guarded {who : Option Job} {c : Call} {t : List Event} {reply : collaborators.Reply c}
    (h : Logs who (Program.guarded collaborators c) t reply) :
    reply ≠ .error .cancelled ∧ t = [.started who c, .answered who c reply] := by
  obtain ⟨reply', t', hreply, rfl, rfl, rfl⟩ := h
  exact ⟨hreply, rfl⟩

section Strand

variable {k : Setting σ} {who : Option Job} {s s' : σ}

theorem Strand.Step.logs (hk : Undisturbed k) {strand strand' : Strand α} {t t' : List Event} {a : α}
    (step : strand.Step k who s t strand' s') (h : strand'.Logs who t' a) :
    strand.Logs who (t ++ t') a := by
  cases step with
  | look _ =>
    rw [hk.clear] at h
    exact h
  | start hp =>
    obtain ⟨reply, t₁, hreply, rfl, h⟩ := h
    apply Logs.of_looked
    rw [hk.clear] at hp
    rw [hp]
    exact ⟨reply, t₁, hreply, rfl, h⟩
  | @finish c next reply _ _ hfinish =>
    -- Some reply is promised in this state, and there is only one.
    obtain ⟨reply', s'', hfinish', hreply⟩ := hk.reply c s
    rw [hfinish, Prod.mk.injEq, Option.some.injEq] at hfinish'
    exact ⟨reply, t', hfinish'.1 ▸ hreply, rfl, h⟩
  | giveUp hfired =>
    rw [hk.clear] at hfired
    cases hfired

end Strand

/-! ## Pools -/

/-- A job that has been done: what it has shown, and its outcome. -/
structure Ran where
  job : Job
  log : List Event
  outcome : Outcome

/-- A job of a pool has been done from where it stood: under way, or not begun. -/
def Ran.Fits (e : Engine) (ran : Ran) : Worker ⊕ Job → Prop
  | .inl w => ran.job = w.job ∧ w.strand.Logs (some w.job) ran.log ran.outcome
  | .inr j => ran.job = j ∧ ∃ log, ran.log = .begun j :: log ∧ Logs (some j) (e.task j) log ran.outcome

/-- The jobs that a pool still has to do, from where they stand. -/
def Pool.items (pool : Pool) : List (Worker ⊕ Job) :=
  pool.working.map .inl ++ pool.pending.map .inr

/-- What is left of a pool shows a log and brings results: the jobs are done in some order, and what they
show is mingled. -/
def Pool.Logs (e : Engine) (pool : Pool) (t : List Event) (results : List (Row × Outcome)) : Prop :=
  ∃ ran items : List _, List.Forall₂ (Ran.Fits e) items pool.items ∧ items.Perm ran ∧
    t.Perm (ran.flatMap Ran.log) ∧
    results = pool.results ++ ran.map fun d => (d.job.row, d.outcome)

theorem forall₂_of_mem {γ δ : Type} {R : γ → δ → Prop} {l : List γ} {l' : List δ}
    (h : List.Forall₂ R l l') {a : γ} (ha : a ∈ l) : ∃ b, b ∈ l' ∧ R a b := by
  induction h with
  | nil => cases ha
  | cons hab _ ih =>
    rcases List.mem_cons.1 ha with rfl | ha
    · exact ⟨_, List.mem_cons_self, hab⟩
    · obtain ⟨b, hb, hR⟩ := ih ha
      exact ⟨b, List.mem_cons_of_mem _ hb, hR⟩

theorem forall₂_append_right {γ δ : Type} {R : γ → δ → Prop} {l : List γ} {l₁ l₂ : List δ}
    (h : List.Forall₂ R l (l₁ ++ l₂)) :
    ∃ k₁ k₂, l = k₁ ++ k₂ ∧ List.Forall₂ R k₁ l₁ ∧ List.Forall₂ R k₂ l₂ := by
  induction l₁ generalizing l with
  | nil => exact ⟨[], l, rfl, .nil, h⟩
  | cons b l₁ ih =>
    cases h with
    | cons hab hrest =>
      obtain ⟨k₁, k₂, rfl, h₁, h₂⟩ := ih hrest
      exact ⟨_ :: k₁, k₂, rfl, .cons hab h₁, h₂⟩

/-- One job of a pool has shown something more. -/
theorem exists_extended {e : Engine} {items ran : List Ran} {before after : List (Worker ⊕ Job)}
    (item : Worker ⊕ Job) {item' : Worker ⊕ Job} {t : List Event} (u : List Event)
    (hitems : List.Forall₂ (Ran.Fits e) items (before ++ item' :: after)) (hperm : items.Perm ran)
    (ht : t.Perm (ran.flatMap Ran.log))
    (hitem : ∀ d : Ran, d.Fits e item' → Ran.Fits e { d with log := u ++ d.log } item) :
    ∃ ran' items' : List Ran, List.Forall₂ (Ran.Fits e) items' (before ++ item :: after) ∧
      items'.Perm ran' ∧ (u ++ t).Perm (ran'.flatMap Ran.log) ∧
      (ran'.map fun d => (d.job.row, d.outcome)) = ran.map fun d => (d.job.row, d.outcome) := by
  obtain ⟨i₁, i₂, rfl, h₁, h₂⟩ := forall₂_append_right hitems
  cases h₂ with
  | @cons d _ i₂ _ hd h₂ =>
    -- The job is taken out of both lists, extended, and put back where it was.
    obtain ⟨r₁, r₂, rfl⟩ := List.append_of_mem (hperm.subset (List.mem_append_right _ List.mem_cons_self))
    have hrest : (i₁ ++ i₂).Perm (r₁ ++ r₂) :=
      (List.perm_middle.symm.trans (hperm.trans List.perm_middle)).cons_inv
    refine ⟨r₁ ++ { d with log := u ++ d.log } :: r₂, i₁ ++ { d with log := u ++ d.log } :: i₂, ?_, ?_, ?_, ?_⟩
    · exact List.rel_append h₁ (.cons (hitem d hd) h₂)
    · exact List.perm_middle.trans ((hrest.cons _).trans List.perm_middle.symm)
    · simp only [List.flatMap_append, List.flatMap_cons] at ht ⊢
      refine (ht.append_left u).trans ?_
      -- What was shown now moves in front of the log of its own job.
      rw [List.append_assoc u, ← List.append_assoc u, ← List.append_assoc _ u]
      exact List.perm_append_comm.append_right _
    · simp

theorem Pool.Step.logs {e : Engine} {k : Setting σ} {s s' : σ} (hk : Undisturbed k) {pool pool' : Pool}
    {t t' : List Event} {results : List (Row × Outcome)} (step : pool.Step e k s t pool' s')
    (h : pool'.Logs e t' results) : pool.Logs e (t ++ t') results := by
  obtain ⟨ran, items, hitems, hperm, ht, rfl⟩ := h
  -- Whatever the step, one item of the pool has shown something more, or none has.
  cases step with
  | @begin crew j jobs ws rs _ _ _ =>
    have hitems : List.Forall₂ (Ran.Fits e) items
        (ws.map .inl ++ .inl ⟨j, .ready (e.task j)⟩ :: jobs.map .inr) := by
      simpa [Pool.items] using hitems
    obtain ⟨ran', items', hitems', hperm', ht', hresults⟩ :=
      exists_extended (.inr j) [.begun j] hitems hperm ht
        fun d ⟨hjob, hlogs⟩ => ⟨hjob, d.log, rfl, hlogs⟩
    exact ⟨ran', items', hitems', hperm', ht', by rw [hresults]⟩
  | close hfired =>
    rw [hk.clear] at hfired
    cases hfired
  | @work crew jobs ws ws' j strand strand' rs _ _ t hstep =>
    have hitems : List.Forall₂ (Ran.Fits e) items
        (ws.map .inl ++ .inl ⟨j, strand'⟩ :: (ws'.map .inl ++ jobs.map .inr)) := by
      simpa [Pool.items] using hitems
    obtain ⟨ran', items', hitems', hperm', ht', hresults⟩ :=
      exists_extended (.inl ⟨j, strand⟩) t hitems hperm ht
        fun d ⟨hjob, hlogs⟩ => ⟨hjob, hstep.logs hk hlogs⟩
    exact ⟨ran', items', by simpa [Pool.items] using hitems', hperm', ht', by rw [hresults]⟩
  | @leave crew jobs ws ws' j outcome rs _ =>
    have hitems : List.Forall₂ (Ran.Fits e) items
        (ws.map .inl ++ (ws'.map .inl ++ jobs.map .inr)) := by
      simpa [Pool.items] using hitems
    obtain ⟨i₁, i₂, rfl, h₁, h₂⟩ := forall₂_append_right hitems
    refine ⟨⟨j, [], outcome⟩ :: ran, i₁ ++ ⟨j, [], outcome⟩ :: i₂, ?_, ?_, ht, by simp⟩
    -- The job has nothing left to show, and it comes first among those that ran.
    · have hleft : Ran.Fits e ⟨j, [], outcome⟩ (.inl ⟨j, .ready (.done outcome)⟩) := ⟨rfl, rfl, rfl⟩
      simpa [Pool.items] using List.rel_append h₁ (.cons hleft h₂)
    · exact List.perm_middle.trans (hperm.cons _)
  | @lose jobs ws ws' j c next rs _ _ hnone =>
    obtain ⟨reply, s'', hfinish, -⟩ := hk.reply c s
    rw [hnone] at hfinish
    cases hfinish

theorem map_job_of_fits {e : Engine} {items : List Ran} {jobs : List Job}
    (h : List.Forall₂ (fun d j => Ran.Fits e d (.inr j)) items jobs) : items.map Ran.job = jobs := by
  induction h with
  | nil => rfl
  | cons hfits _ ih => rw [List.map_cons, ih, hfits.1]

/-- Every job of a pool has been done once. -/
theorem Pool.Logs.all_ran {e : Engine} {crew : Crew} {jobs : List Job} {t : List Event}
    {results : List (Row × Outcome)} (h : Pool.Logs e { crew, pending := jobs } t results) :
    ∃ ran : List Ran, (ran.map Ran.job).Perm jobs ∧ (∀ d ∈ ran, d.Fits e (.inr d.job)) ∧
      t.Perm (ran.flatMap Ran.log) ∧ results = ran.map fun d => (d.job.row, d.outcome) := by
  obtain ⟨ran, items, hitems, hperm, ht, rfl⟩ := h
  have hitems : List.Forall₂ (fun d j => d.Fits e (.inr j)) items jobs := by
    simpa [Pool.items, List.forall₂_map_right_iff] using hitems
  refine ⟨ran, map_job_of_fits hitems ▸ (hperm.map Ran.job).symm, ?_, ht, rfl⟩
  intro d hd
  obtain ⟨j, -, hfits⟩ := forall₂_of_mem hitems (hperm.mem_iff.2 hd)
  exact hfits.1 ▸ hfits

/-! ## Plans -/

/-- `Logs` for plans. A pool does each of its jobs once. -/
def Plan.Logs (e : Engine) : Plan α → List Event → α → Prop
  | .done a', t, a => t = [] ∧ a' = a
  | .look next, t, a => Logs e (next false) t a
  | .call c next, t, a => ∃ reply t', reply ≠ .error .cancelled ∧
      t = .started none c :: .answered none c reply :: t' ∧ Logs e (next reply) t' a
  | .pool crew jobs next, t, a => ∃ t₁ t₂ results, t = t₁ ++ t₂ ∧
      Pool.Logs e { crew, pending := jobs } t₁ results ∧ Logs e (next results) t₂ a

theorem Plan.Logs.of_looked {e : Engine} {p : Plan α} {t : List Event} {a : α} (h : (p.looked false).Logs e t a) :
    p.Logs e t a := by
  cases p <;> exact h

/-- What is left of a run shows a log and comes to an outcome. -/
def Config.Logs (e : Engine) : Config α → List Event → α → Prop
  | .ready p, t, a => p.Logs e t a
  | .waiting c next, t, a => ∃ reply t', reply ≠ .error .cancelled ∧
      t = .answered none c reply :: t' ∧ (next reply).Logs e t' a
  | .pool P next, t, a => ∃ t₁ t₂ results, t = t₁ ++ t₂ ∧ P.Logs e t₁ results ∧ (next results).Logs e t₂ a
  | .broken, _, _ => False

section Plan

variable {e : Engine} {k : Setting σ} {s s' : σ} {t t' : List Event}

theorem Config.Step.logs (hk : Undisturbed k) {c c' : Config α} {a : α} (step : Config.Step e k c s t c' s')
    (h : c'.Logs e t' a) : c.Logs e (t ++ t') a := by
  cases step with
  | drift _ => exact h
  | look _ =>
    rw [hk.clear] at h
    exact h
  | start hp =>
    obtain ⟨reply, t₁, hreply, rfl, h⟩ := h
    apply Plan.Logs.of_looked
    rw [hk.clear] at hp
    rw [hp]
    exact ⟨reply, t₁, hreply, rfl, h⟩
  | @finish c next reply _ _ hfinish =>
    obtain ⟨reply', s'', hfinish', hreply⟩ := hk.reply c s
    rw [hfinish, Prod.mk.injEq, Option.some.injEq] at hfinish'
    exact ⟨reply, t', hfinish'.1 ▸ hreply, rfl, h⟩
  | giveUp hfired =>
    rw [hk.clear] at hfired
    cases hfired
  | enter => exact h
  | work hstep =>
    obtain ⟨t₁, t₂, results, rfl, hpool, h⟩ := h
    exact ⟨t ++ t₁, t₂, results, by rw [List.append_assoc], hstep.logs hk hpool, h⟩
  | leave => exact ⟨[], t', _, rfl, ⟨[], [], .nil, .refl _, .refl _, by simp⟩, h⟩
  | breakDown _ => exact h.elim
  | collapse _ => exact h.elim

theorem Config.Steps.logs (hk : Undisturbed k) {c c' : Config α} {a : α}
    (steps : Config.Steps e k c s t c' s') (h : c'.Logs e t' a) : c.Logs e (t ++ t') a := by
  induction steps with
  | refl => exact h
  | head step _ ih =>
    rw [List.append_assoc]
    exact step.logs hk (ih h)

/-- A run that nothing disturbs shows a log of its plan. -/
theorem Plan.Executes.logs (hk : Undisturbed k) {p : Plan α} {a : α} (run : p.Executes e k s t a s') :
    p.Logs e t a := by
  have h : Config.Logs e (.ready p) (t ++ []) a := Config.Steps.logs hk run ⟨rfl, rfl⟩
  rwa [List.append_nil] at h

theorem Plan.Logs.bind {p : Plan α} {f : α → Plan β} {b : β} (h : (p.bind f).Logs e t b) :
    ∃ t₁ a t₂, t = t₁ ++ t₂ ∧ p.Logs e t₁ a ∧ (f a).Logs e t₂ b := by
  induction p generalizing t with
  | done a => exact ⟨[], a, t, rfl, ⟨rfl, rfl⟩, h⟩
  | look next ih => exact ih false h
  | call c next ih =>
    obtain ⟨reply, t', hreply, rfl, h⟩ := h
    obtain ⟨t₁, a, t₂, rfl, h₁, h₂⟩ := ih reply h
    exact ⟨_, a, t₂, rfl, ⟨reply, t₁, hreply, rfl, h₁⟩, h₂⟩
  | pool crew jobs next ih =>
    obtain ⟨t₀, t', results, rfl, hpool, h⟩ := h
    obtain ⟨t₁, a, t₂, rfl, h₁, h₂⟩ := ih results h
    exact ⟨t₀ ++ t₁, a, t₂, by rw [List.append_assoc], ⟨t₀, t₁, results, rfl, hpool, h₁⟩, h₂⟩

theorem Plan.Logs.ofTask {p : Task α} {a : α} (h : (Plan.ofTask p).Logs e t a) : Engine.Logs none p t a := by
  induction p generalizing t with
  | done a' => exact h
  | look next ih => exact ih false h
  | call c next ih =>
    obtain ⟨reply, t', hreply, rfl, h⟩ := h
    exact ⟨reply, t', hreply, rfl, ih reply h⟩

end Plan

/-! ## Runs come to an end -/

section Completion

variable {e : Engine} {k : Setting σ}

/-- All that matters of how the state changes under such a run: nothing. -/
def Replying.promise (hk : Replying k) : Promise k where
  holds _ _ := True
  refl _ := trivial
  trans _ _ := trivial
  drift _ := trivial
  fired {s _} _ hfired := by
    rw [hk.clear s] at hfired
    cases hfired

theorem Replying.calls (hk : Replying k) (c : Call) {P : collaborators.Reply c → σ → Prop} {s : σ}
    (h : ∀ reply s', P reply s') : Calls hk.promise c P s := by
  refine fun s' _ => ⟨trivial, fun s₁ _ => ⟨?_, fun _ => ⟨trivial, h _ _⟩⟩⟩
  obtain ⟨reply, s₂, hfinish⟩ := hk.reply c s₁
  exact ⟨reply, s₂, hfinish, trivial, h reply s₂⟩

theorem Replying.wp (hk : Replying k) (p : Task α) (s : σ) :
    Engine.wp hk.promise (fun _ _ => True) p s := by
  induction p generalizing s with
  | done a => exact fun _ _ => trivial
  | look next ih =>
    intro s' _
    exact ih _ s'
  | call c next ih => exact hk.calls c ih

/-- Such a run can be brought to its end, whatever it has done so far. -/
theorem Replying.ensures (hk : Replying k) (p : Plan α) (s : σ) :
    p.Ensures e k s fun _ _ => True := by
  refine Plan.wp.ensures (R := hk.promise) ?_
  induction p generalizing s with
  | done a => exact fun _ _ => trivial
  | look next ih =>
    intro s' _
    exact ih _ s'
  | call c next ih => exact ⟨hk.promise, .refl _, hk.calls c ih⟩
  | pool crew jobs next ih =>
    exact ⟨hk.promise, .refl _, fun _ _ _ => True, fun j _ => hk.wp (e.task j) s,
      fun results s' _ _ => ih results s'⟩

theorem Undisturbed.ensures (hk : Undisturbed k) (p : Plan α) (s : σ) : p.Ensures e k s fun _ _ => True :=
  hk.replying.ensures p s

end Completion

/-! ## Outcomes that are made of others -/

section Map

variable {e : Engine} {k : Setting σ} {s s' : σ} {t : List Event} {g : α → β}

/-- A run under way whose outcome is still to be turned into another. -/
def Config.map (g : α → β) : Config α → Config β
  | .ready p => .ready (p.bind fun a => .done (g a))
  | .waiting c next => .waiting c fun reply => (next reply).bind fun a => .done (g a)
  | .pool P next => .pool P fun results => (next results).bind fun a => .done (g a)
  | .broken => .broken

theorem Plan.bind_eq_call {p : Plan α} {f : α → Plan β} {c : Call} {next : collaborators.Reply c → Plan β}
    (hf : ∀ a, (f a).isCall = false) (h : p.bind f = .call c next) :
    ∃ next', p = .call c next' ∧ next = fun reply => (next' reply).bind f := by
  cases p with
  | done a =>
    have hcall := hf a
    rw [show f a = .call c next from h] at hcall
    cases hcall
  | call c' next' =>
    cases h
    exact ⟨next', rfl, rfl⟩
  | look next' => cases h
  | pool crew jobs next' => cases h

theorem Plan.isCall_of_bind {p : Plan α} {f : α → Plan β} (h : (p.bind f).isCall = false) :
    p.isCall = false := by
  cases p with
  | call c next => cases h
  | _ => rfl

/-- Every step of such a run is one of the run itself. -/
theorem Config.Step.of_map {c : Config α} {d : Config β} (step : Config.Step e k (c.map g) s t d s') :
    ∃ c', Config.Step e k c s t c' s' ∧ d = c'.map g := by
  -- What is done to the result is no step of its own, so every step is one of the plan inside.
  cases c with
  | ready p =>
    cases p with
    | done a =>
      cases step with
      | drift h => exact ⟨_, .drift h, rfl⟩
      | start h => cases h
    | look next =>
      cases step with
      | drift h => exact ⟨_, .drift h, rfl⟩
      | look h => exact ⟨_, .look (Plan.isCall_of_bind h), rfl⟩
      | start h =>
        obtain ⟨next', hnext, rfl⟩ := Plan.bind_eq_call (fun _ => rfl) h
        exact ⟨_, .start hnext, rfl⟩
    | call c next =>
      cases step with
      | drift h => exact ⟨_, .drift h, rfl⟩
      | start h =>
        cases h
        exact ⟨_, .start rfl, rfl⟩
    | pool crew jobs next =>
      cases step with
      | drift h => exact ⟨_, .drift h, rfl⟩
      | start h => cases h
      | enter => exact ⟨_, .enter, rfl⟩
  | waiting c next =>
    cases step with
    | drift h => exact ⟨_, .drift h, rfl⟩
    | finish h => exact ⟨_, .finish h, rfl⟩
    | giveUp h => exact ⟨_, .giveUp h, rfl⟩
    | breakDown h => exact ⟨_, .breakDown h, rfl⟩
  | pool P next =>
    cases step with
    | drift h => exact ⟨_, .drift h, rfl⟩
    | work h => exact ⟨_, .work h, rfl⟩
    | leave => exact ⟨_, .leave, rfl⟩
    | collapse h => exact ⟨_, .collapse h, rfl⟩
  | broken =>
    cases step with
    | drift h => exact ⟨_, .drift h, rfl⟩

theorem Config.Steps.of_map {c : Config α} {d : Config β} (steps : Config.Steps e k (c.map g) s t d s') :
    ∃ c', Config.Steps e k c s t c' s' ∧ d = c'.map g := by
  -- The steps start where a plan is still to be turned, and each step leads to another such place.
  generalize hc : c.map g = d₀ at steps
  induction steps generalizing c with
  | refl => exact ⟨c, .refl, hc.symm⟩
  | head step _ ih =>
    obtain ⟨c₁, step₁, rfl⟩ := (hc ▸ step).of_map
    obtain ⟨c', steps', rfl⟩ := ih rfl
    exact ⟨c', .head step₁ steps', rfl⟩

/-- A plan whose outcome is made of that of another runs as the other one does. -/
theorem Plan.Executes.of_bind_done {p : Plan α} {b : β}
    (run : (p.bind fun a => .done (g a)).Executes e k s t b s') :
    ∃ a, p.Executes e k s t a s' ∧ b = g a := by
  obtain ⟨c, steps, heq⟩ := Config.Steps.of_map (c := .ready p) run
  cases c with
  | ready q =>
    cases q with
    | done a =>
      cases heq
      exact ⟨a, steps, rfl⟩
    | _ => cases heq
  | _ => cases heq

end Map

end Geocoding.Engine
