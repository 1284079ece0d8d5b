import Geocoding.Engine.Bulk
import Geocoding.Engine.Interleaving

/-!
# Which calls runs make

A run may be called off and break down wherever it likes; what it asks for, and what it comes to if it does come
to its end, depends on the replies alone. So both can be read off its plan: as long as the replies are as
expected, every call is one that is permitted. No order of steps makes a difference to that.
-/

namespace Geocoding.Engine

variable {α β σ : Type}

/-- Which calls are permitted, for a job or the run itself, and which replies are expected. It has to be
expected of every call that it is cancelled. -/
structure Terms where
  permits : Option Job → Call → Prop
  expects : Option Job → (c : Call) → collaborators.Reply c → Prop
  cancelled : ∀ who c, expects who c (.error .cancelled)

/-- A call that is started is permitted. -/
def Event.Permitted (T : Terms) : Event → Prop
  | .started who c => T.permits who c
  | _ => True

/-- A reply is expected. -/
def Event.Expected (T : Terms) : Event → Prop
  | .answered who c reply => T.expects who c reply
  | _ => True

/-! ## Tasks -/

/-- As long as the replies are expected, a task makes permitted calls only, and comes to an outcome that `Q`
holds of, if to any. -/
def Assures (T : Terms) (who : Option Job) (Q : α → Prop) : Task α → Prop
  | .done a => Q a
  | .look next => ∀ fired, Assures T who Q (next fired)
  | .call c next => T.permits who c ∧ ∀ reply, T.expects who c reply → Assures T who Q (next reply)

/-- `Assures` for what is left of a task under way. -/
def Strand.Assures (T : Terms) (who : Option Job) (Q : α → Prop) : Strand α → Prop
  | .ready p => Engine.Assures T who Q p
  | .waiting c next => ∀ reply, T.expects who c reply → Engine.Assures T who Q (next reply)

section Task

variable {T : Terms} {who : Option Job} {Q Q' : α → Prop} {p : Task α}

theorem Assures.mono (h : Assures T who Q p) (hQ : ∀ a, Q a → Q' a) : Assures T who Q' p := by
  induction p with
  | done a => exact hQ a h
  | look next ih => exact fun fired => ih fired (h fired)
  | call c next ih => exact ⟨h.1, fun reply hreply => ih reply (h.2 reply hreply)⟩

theorem Assures.bind {Q : β → Prop} {f : α → Task β} (h : Assures T who (fun a => Assures T who Q (f a)) p) :
    Assures T who Q (p.bind f) := by
  induction p with
  | done a => exact h
  | look next ih => exact fun fired => ih fired (h fired)
  | call c next ih => exact ⟨h.1, fun reply hreply => ih reply (h.2 reply hreply)⟩

theorem assures_guarded {c : Call} (h : T.permits who c) :
    Assures T who (T.expects who c) (Program.guarded collaborators c) := by
  intro fired
  cases fired with
  | true => exact T.cancelled who c
  | false => exact ⟨h, fun reply hreply => hreply⟩

theorem Strand.Step.assured {k : Setting σ} {strand strand' : Strand α} {s s' : σ} {t : List Event}
    (step : strand.Step k who s t strand' s') (h : strand.Assures T who Q) (hreplies : ∀ event ∈ t, event.Expected T) :
    (∀ event ∈ t, event.Permitted T) ∧ strand'.Assures T who Q := by
  cases step with
  | look _ => exact ⟨by simp, h _⟩
  | @start p c next _ hp =>
    -- The call may come after a look, which clears it in the same step.
    have hcall : Engine.Assures T who Q (.call c next) := by
      rw [← hp]
      cases p with
      | look next' => exact h _
      | done a => exact h
      | call c' next' => exact h
    exact ⟨List.forall_mem_singleton.2 hcall.1, hcall.2⟩
  | finish _ => exact ⟨by simp [Event.Permitted], h _ (hreplies _ List.mem_cons_self)⟩
  | giveUp _ => exact ⟨by simp [Event.Permitted], h _ (T.cancelled who _)⟩

end Task

/-! ## Pools -/

/-- What jobs have brought is as they assure. -/
def BroughtBy (spec : Job → Outcome → Prop) (jobs : List Job) (results : List (Row × Outcome)) : Prop :=
  ∀ w ∈ results, ∃ j ∈ jobs, j.row = w.1 ∧ spec j w.2

/-- `Assures` for the jobs of a pool, begun or not, of which there were `all` at first. -/
structure Pool.Assures (e : Engine) (T : Terms) (all : List Job) (spec : Job → Outcome → Prop) (pool : Pool) :
    Prop where
  pending : ∀ j ∈ pool.pending, j ∈ all ∧ Engine.Assures T (some j) (spec j) (e.task j)
  working : ∀ w ∈ pool.working, w.job ∈ all ∧ w.strand.Assures T (some w.job) (spec w.job)
  results : BroughtBy spec all pool.results

section Pool

variable {e : Engine} {k : Setting σ} {T : Terms} {all : List Job} {spec : Job → Outcome → Prop} {pool pool' : Pool}
  {s s' : σ} {t : List Event}

theorem Pool.Step.assured (step : pool.Step e k s t pool' s') (h : pool.Assures e T all spec)
    (hreplies : ∀ event ∈ t, event.Expected T) :
    (∀ event ∈ t, event.Permitted T) ∧ pool'.Assures e T all spec := by
  obtain ⟨hpending, hworking, hresults⟩ := h
  cases step with
  | begin _ _ =>
    obtain ⟨hjob, hjobs⟩ := List.forall_mem_cons.1 hpending
    exact ⟨by simp [Event.Permitted], hjobs, List.forall_mem_append.2 ⟨hworking, List.forall_mem_singleton.2 hjob⟩,
      hresults⟩
  | close _ => exact ⟨by simp, by simp, hworking, hresults⟩
  | work hstep =>
    obtain ⟨hothers, hcons⟩ := List.forall_mem_append.1 hworking
    obtain ⟨⟨hall, hstrand⟩, hothers'⟩ := List.forall_mem_cons.1 hcons
    obtain ⟨hpermitted, hstrand'⟩ := hstep.assured hstrand hreplies
    exact ⟨hpermitted, hpending,
      List.forall_mem_append.2 ⟨hothers, List.forall_mem_cons.2 ⟨⟨hall, hstrand'⟩, hothers'⟩⟩, hresults⟩
  | leave =>
    obtain ⟨hothers, hcons⟩ := List.forall_mem_append.1 hworking
    obtain ⟨⟨hall, houtcome⟩, hothers'⟩ := List.forall_mem_cons.1 hcons
    exact ⟨by simp, hpending, List.forall_mem_append.2 ⟨hothers, hothers'⟩,
      List.forall_mem_append.2 ⟨hresults, List.forall_mem_singleton.2 ⟨_, hall, rfl, houtcome⟩⟩⟩
  | lose _ =>
    obtain ⟨hothers, hcons⟩ := List.forall_mem_append.1 hworking
    exact ⟨by simp [Event.Permitted], hpending,
      List.forall_mem_append.2 ⟨hothers, (List.forall_mem_cons.1 hcons).2⟩, hresults⟩

end Pool

/-! ## Plans -/

/-- `Assures` for plans, which go on with whatever their jobs may bring. -/
def Plan.Assures (e : Engine) (T : Terms) (Q : α → Prop) : Plan α → Prop
  | .done a => Q a
  | .look next => ∀ fired, (next fired).Assures e T Q
  | .call c next => T.permits none c ∧ ∀ reply, T.expects none c reply → (next reply).Assures e T Q
  | .pool _ jobs next => ∃ spec : Job → Outcome → Prop, (∀ j ∈ jobs, Engine.Assures T (some j) (spec j) (e.task j)) ∧
      ∀ results, BroughtBy spec jobs results → (next results).Assures e T Q

/-- `Assures` for what is left of a run. -/
def Config.Assures (e : Engine) (T : Terms) (Q : α → Prop) : Config α → Prop
  | .ready p => p.Assures e T Q
  | .waiting c next => ∀ reply, T.expects none c reply → (next reply).Assures e T Q
  | .pool P next => ∃ all spec, P.Assures e T all spec ∧
      ∀ results, BroughtBy spec all results → (next results).Assures e T Q
  | .broken => True

section Plan

variable {e : Engine} {k : Setting σ} {T : Terms} {Q Q' : α → Prop} {p : Plan α} {s s' : σ} {t : List Event}

theorem Plan.Assures.mono (h : p.Assures e T Q) (hQ : ∀ a, Q a → Q' a) : p.Assures e T Q' := by
  induction p with
  | done a => exact hQ a h
  | look next ih => exact fun fired => ih fired (h fired)
  | call c next ih => exact ⟨h.1, fun reply hreply => ih reply (h.2 reply hreply)⟩
  | pool crew jobs next ih =>
    obtain ⟨spec, hjobs, hnext⟩ := h
    exact ⟨spec, hjobs, fun results hresults => ih results (hnext results hresults)⟩

theorem Plan.Assures.bind {Q : β → Prop} {f : α → Plan β} (h : p.Assures e T fun a => (f a).Assures e T Q) :
    (p.bind f).Assures e T Q := by
  induction p with
  | done a => exact h
  | look next ih => exact fun fired => ih fired (h fired)
  | call c next ih => exact ⟨h.1, fun reply hreply => ih reply (h.2 reply hreply)⟩
  | pool crew jobs next ih =>
    obtain ⟨spec, hjobs, hnext⟩ := h
    exact ⟨spec, hjobs, fun results hresults => ih results (hnext results hresults)⟩

theorem Plan.Assures.ofTask {p : Task α} (h : Engine.Assures T none Q p) : (Plan.ofTask p).Assures e T Q := by
  induction p with
  | done a => exact h
  | look next ih => exact fun fired => ih fired (h fired)
  | call c next ih => exact ⟨h.1, fun reply hreply => ih reply (h.2 reply hreply)⟩

theorem Config.Step.assured {c c' : Config α} (step : Config.Step e k c s t c' s') (h : c.Assures e T Q)
    (hreplies : ∀ event ∈ t, event.Expected T) : (∀ event ∈ t, event.Permitted T) ∧ c'.Assures e T Q := by
  cases step with
  | drift _ => exact ⟨by simp, h⟩
  | look _ => exact ⟨by simp, h _⟩
  | @start p c next _ hp =>
    have hcall : Plan.Assures e T Q (.call c next) := by
      rw [← hp]
      cases p with
      | look next' => exact h _
      | done a => exact h
      | call c' next' => exact h
      | pool crew jobs next' => exact h
    exact ⟨List.forall_mem_singleton.2 hcall.1, hcall.2⟩
  | finish _ => exact ⟨by simp [Event.Permitted], h _ (hreplies _ List.mem_cons_self)⟩
  | giveUp _ => exact ⟨by simp [Event.Permitted], h _ (T.cancelled none _)⟩
  | enter =>
    obtain ⟨spec, hjobs, hnext⟩ := h
    exact ⟨by simp, _, spec, ⟨fun j hj => ⟨hj, hjobs j hj⟩, by simp, by simp [BroughtBy]⟩, hnext⟩
  | work hstep =>
    obtain ⟨all, spec, hpool, hnext⟩ := h
    obtain ⟨hpermitted, hpool'⟩ := hstep.assured hpool hreplies
    exact ⟨hpermitted, all, spec, hpool', hnext⟩
  | leave =>
    obtain ⟨all, spec, hpool, hnext⟩ := h
    exact ⟨by simp, hnext _ hpool.results⟩
  | breakDown _ => exact ⟨by simp [Event.Permitted], trivial⟩
  | collapse _ => exact ⟨by simp [Event.Permitted], trivial⟩

/-- As long as the replies are expected, all calls that a run starts are permitted, and it goes on so. -/
theorem Config.Steps.assured {c c' : Config α} (steps : Config.Steps e k c s t c' s') (h : c.Assures e T Q)
    (hreplies : ∀ event ∈ t, event.Expected T) : (∀ event ∈ t, event.Permitted T) ∧ c'.Assures e T Q := by
  induction steps with
  | refl => exact ⟨by simp, h⟩
  | head step _ ih =>
    obtain ⟨hfirst, hlater⟩ := List.forall_mem_append.1 hreplies
    obtain ⟨hpermitted, h'⟩ := step.assured h hfirst
    obtain ⟨hpermitted', h''⟩ := ih h' hlater
    exact ⟨List.forall_mem_append.2 ⟨hpermitted, hpermitted'⟩, h''⟩

/-- A run that comes to its end has an outcome that its plan assures. -/
theorem Plan.Executes.assured {a : α} (run : p.Executes e k s t a s') (h : p.Assures e T Q)
    (hreplies : ∀ event ∈ t, event.Expected T) : Q a :=
  (Config.Steps.assured run h hreplies).2

end Plan

/-! ## Runs in order -/

/-- Calls that are permitted are answered, as expected. -/
def Terms.KeptBy (T : Terms) (w : World collaborators σ) : Prop :=
  ∀ who c s, T.permits who c → ∃ reply s', w.answer c s = (some reply, s') ∧ T.expects who c reply

section Run

variable {e : Engine} {w : World collaborators σ} {T : Terms}

theorem Assures.run {who : Option Job} {Q : α → Prop} {p : Task α} (h : Assures T who Q p) (hw : T.KeptBy w) (s : σ) :
    ∃ a s', p.run w s = (some a, s') ∧ Q a := by
  induction p generalizing s with
  | done a => exact ⟨a, s, rfl, h⟩
  | look next ih => exact ih _ (h _) s
  | call c next ih =>
    obtain ⟨reply, s₁, hanswer, hreply⟩ := hw who c s h.1
    obtain ⟨a, s', hrun, ha⟩ := ih reply (h.2 reply hreply) s₁
    exact ⟨a, s', by simp [Program.run, hanswer, hrun], ha⟩

theorem runJobs_assured (crew : Crew) {jobs : List Job} {spec : Job → Outcome → Prop}
    (h : ∀ j ∈ jobs, Assures T (some j) (spec j) (e.task j)) (hw : T.KeptBy w) (s : σ) :
    ∃ results s', Plan.runJobs e w crew jobs s = (some results, s') ∧ BroughtBy spec jobs results := by
  induction jobs generalizing s with
  | nil => exact ⟨[], s, rfl, by simp [BroughtBy]⟩
  | cons j jobs ih =>
    obtain ⟨hj, hjobs⟩ := List.forall_mem_cons.1 h
    unfold Plan.runJobs
    split
    · exact ⟨[], s, rfl, by simp [BroughtBy]⟩
    · obtain ⟨outcome, s₁, hrun, houtcome⟩ := hj.run hw s
      obtain ⟨results, s', hrest, hresults⟩ := ih hjobs s₁
      refine ⟨(j.row, outcome) :: results, s', by simp [hrun, hrest], ?_⟩
      refine List.forall_mem_cons.2 ⟨⟨j, List.mem_cons_self, rfl, houtcome⟩, fun result hresult => ?_⟩
      obtain ⟨i, hi, hrow, hspec⟩ := hresults result hresult
      exact ⟨i, List.mem_cons_of_mem _ hi, hrow, hspec⟩

/-- Where the terms are kept, a plan comes to its end, with an outcome that it assures. -/
theorem Plan.Assures.run {Q : α → Prop} {p : Plan α} (h : p.Assures e T Q) (hw : T.KeptBy w) (s : σ) :
    ∃ a s', p.run e w s = (some a, s') ∧ Q a := by
  induction p generalizing s with
  | done a => exact ⟨a, s, rfl, h⟩
  | look next ih => exact ih _ (h _) s
  | call c next ih =>
    obtain ⟨reply, s₁, hanswer, hreply⟩ := hw none c s h.1
    obtain ⟨a, s', hrun, ha⟩ := ih reply (h.2 reply hreply) s₁
    exact ⟨a, s', by simp [Plan.run, hanswer, hrun], ha⟩
  | pool crew jobs next ih =>
    obtain ⟨spec, hjobs, hnext⟩ := h
    obtain ⟨results, s₁, hpool, hresults⟩ := runJobs_assured crew hjobs hw s
    obtain ⟨a, s', hrun, ha⟩ := ih results (hnext results hresults) s₁
    exact ⟨a, s', by simp [Plan.run, hpool, hrun], ha⟩

end Run

end Geocoding.Engine
