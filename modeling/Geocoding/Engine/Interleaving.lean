import Geocoding.Engine.Plan

/-!
# Plans in every order

`Plan.run` does one job after the other. Here a run is a sequence of steps of whoever has the turn: the run
itself, one of the jobs of a pool that are under way, or the surroundings, where time passes and the token
fires. Any of them may be the next to step, so a statement about all runs is one about every order of steps.

A look at the token that clears a call and the start of that call are one step, so nothing comes between
them. Everything else may be interrupted, and a call that waits may see anything happen before it ends.
-/

namespace Geocoding

namespace Program

variable {I : Interface} {α : Type}

/-- What a program goes on with when it has looked at the token, if that is what it does first. -/
def looked (fired : Bool) : Program I α → Program I α
  | look next => next fired
  | p => p

/-- The program starts with a call. -/
def isCall : Program I α → Bool
  | call .. => true
  | _ => false

end Program

namespace Engine

namespace Plan

variable {α : Type}

/-- `Program.looked` for plans. -/
def looked (fired : Bool) : Plan α → Plan α
  | look next => next fired
  | p => p

/-- `Program.isCall` for plans. -/
def isCall : Plan α → Bool
  | call .. => true
  | _ => false

end Plan

/-- What a run goes on in: its collaborators, and what may change without them. -/
structure Setting (σ : Type) where
  world : World collaborators σ
  drift : σ → σ → Prop

/-- What a run shows of itself. Calls are made for a job, or for none by the run itself. -/
inductive Event where
  | begun (j : Job)
  | started (who : Option Job) (c : Call)
  | answered (who : Option Job) (c : Call) (reply : collaborators.Reply c)
  | givenUp (who : Option Job) (c : Call)
  | brokenDown (who : Option Job) (c : Call)

/-- A task under way: it may go on, or it waits for the end of a call. -/
inductive Strand (α : Type) : Type where
  | ready (p : Task α)
  | waiting (c : Call) (next : collaborators.Reply c → Task α)

variable {α σ : Type}

/-- A step of a task. -/
inductive Strand.Step (k : Setting σ) (who : Option Job) :
    Strand α → σ → List Event → Strand α → σ → Prop where
  | look {next : Bool → Task α} {s : σ} (h : (next (k.world.fired s)).isCall = false) :
      Step k who (.ready (.look next)) s [] (.ready (next (k.world.fired s))) s
  | start {p : Task α} {c : Call} {next : collaborators.Reply c → Task α} {s : σ}
      (h : p.looked (k.world.fired s) = .call c next) :
      Step k who (.ready p) s [.started who c] (.waiting c next) (k.world.start c s).2
  | finish {c : Call} {next : collaborators.Reply c → Task α} {reply : collaborators.Reply c} {s s' : σ}
      (h : k.world.finish c s = (some reply, s')) :
      Step k who (.waiting c next) s [.answered who c reply] (.ready (next reply)) s'
  | giveUp {c : Call} {next : collaborators.Reply c → Task α} {s : σ} (h : k.world.fired s = true) :
      Step k who (.waiting c next) s [.givenUp who c] (.ready (next (.error .cancelled)))
        (k.world.abandon c s)

/-- A job under way. -/
structure Worker where
  job : Job
  strand : Strand Outcome

/-- A pool: the jobs that have not been begun, those under way, and what the others have come to. -/
structure Pool where
  crew : Crew
  pending : List Job
  working : List Worker := []
  results : List (Row × Outcome) := []

/-- A step of a pool. -/
inductive Pool.Step (e : Engine) (k : Setting σ) : Pool → σ → List Event → Pool → σ → Prop where
  | begin {crew : Crew} {j : Job} {jobs : List Job} {ws : List Worker} {rs : List (Row × Outcome)} {s : σ}
      (free : ws.length < e.concurrency) (clear : crew = .workers → k.world.fired s = false) :
      Step e k ⟨crew, j :: jobs, ws, rs⟩ s [.begun j] ⟨crew, jobs, ws ++ [⟨j, .ready (e.task j)⟩], rs⟩ s
  | close {jobs : List Job} {ws : List Worker} {rs : List (Row × Outcome)} {s : σ}
      (h : k.world.fired s = true) :
      Step e k ⟨.workers, jobs, ws, rs⟩ s [] ⟨.workers, [], ws, rs⟩ s
  | work {crew : Crew} {jobs : List Job} {ws ws' : List Worker} {j : Job} {strand strand' : Strand Outcome}
      {rs : List (Row × Outcome)} {s s' : σ} {t : List Event} (h : strand.Step k (some j) s t strand' s') :
      Step e k ⟨crew, jobs, ws ++ ⟨j, strand⟩ :: ws', rs⟩ s t ⟨crew, jobs, ws ++ ⟨j, strand'⟩ :: ws', rs⟩ s'
  | leave {crew : Crew} {jobs : List Job} {ws ws' : List Worker} {j : Job} {outcome : Outcome}
      {rs : List (Row × Outcome)} {s : σ} :
      Step e k ⟨crew, jobs, ws ++ ⟨j, .ready (.done outcome)⟩ :: ws', rs⟩ s []
        ⟨crew, jobs, ws ++ ws', rs ++ [(j.row, outcome)]⟩ s
  | lose {jobs : List Job} {ws ws' : List Worker} {j : Job} {c : Call}
      {next : collaborators.Reply c → Task Outcome} {rs : List (Row × Outcome)} {s s' : σ}
      (h : k.world.finish c s = (none, s')) :
      Step e k ⟨.workers, jobs, ws ++ ⟨j, .waiting c next⟩ :: ws', rs⟩ s [.brokenDown (some j) c]
        ⟨.workers, jobs, ws ++ ws', rs⟩ s'

/-- How far a run has come: the run itself may go on, or it waits for the end of a call, or for a pool, or
it has broken down. -/
inductive Config (α : Type) : Type where
  | ready (p : Plan α)
  | waiting (c : Call) (next : collaborators.Reply c → Plan α)
  | pool (pool : Pool) (next : List (Row × Outcome) → Plan α)
  | broken

namespace Config

/-- A step of a run. -/
inductive Step (e : Engine) (k : Setting σ) : Config α → σ → List Event → Config α → σ → Prop where
  | drift {c : Config α} {s s' : σ} (h : k.drift s s') : Step e k c s [] c s'
  | look {next : Bool → Plan α} {s : σ} (h : (next (k.world.fired s)).isCall = false) :
      Step e k (.ready (.look next)) s [] (.ready (next (k.world.fired s))) s
  | start {p : Plan α} {c : Call} {next : collaborators.Reply c → Plan α} {s : σ}
      (h : p.looked (k.world.fired s) = .call c next) :
      Step e k (.ready p) s [.started none c] (.waiting c next) (k.world.start c s).2
  | finish {c : Call} {next : collaborators.Reply c → Plan α} {reply : collaborators.Reply c} {s s' : σ}
      (h : k.world.finish c s = (some reply, s')) :
      Step e k (.waiting c next) s [.answered none c reply] (.ready (next reply)) s'
  | giveUp {c : Call} {next : collaborators.Reply c → Plan α} {s : σ} (h : k.world.fired s = true) :
      Step e k (.waiting c next) s [.givenUp none c] (.ready (next (.error .cancelled)))
        (k.world.abandon c s)
  | enter {crew : Crew} {jobs : List Job} {next : List (Row × Outcome) → Plan α} {s : σ} :
      Step e k (.ready (.pool crew jobs next)) s [] (.pool { crew, pending := jobs } next) s
  | work {pool pool' : Pool} {next : List (Row × Outcome) → Plan α} {s s' : σ} {t : List Event}
      (h : pool.Step e k s t pool' s') :
      Step e k (.pool pool next) s t (.pool pool' next) s'
  | leave {crew : Crew} {rs : List (Row × Outcome)} {next : List (Row × Outcome) → Plan α} {s : σ} :
      Step e k (.pool ⟨crew, [], [], rs⟩ next) s [] (.ready (next rs)) s
  | breakDown {c : Call} {next : collaborators.Reply c → Plan α} {s s' : σ}
      (h : k.world.finish c s = (none, s')) :
      Step e k (.waiting c next) s [.brokenDown none c] .broken s'
  | collapse {jobs : List Job} {ws ws' : List Worker} {j : Job} {c : Call}
      {next : collaborators.Reply c → Task Outcome} {rs : List (Row × Outcome)}
      {after : List (Row × Outcome) → Plan α} {s s' : σ} (h : k.world.finish c s = (none, s')) :
      Step e k (.pool ⟨.itself, jobs, ws ++ ⟨j, .waiting c next⟩ :: ws', rs⟩ after) s
        [.brokenDown (some j) c] .broken s'

/-- Steps one after the other, with all that they show. -/
inductive Steps (e : Engine) (k : Setting σ) : Config α → σ → List Event → Config α → σ → Prop where
  | refl {c : Config α} {s : σ} : Steps e k c s [] c s
  | head {c c' c'' : Config α} {s s' s'' : σ} {t t' : List Event} (h : Step e k c s t c' s')
      (rest : Steps e k c' s' t' c'' s'') : Steps e k c s (t ++ t') c'' s''

end Config

/-- A run of a plan to its end. -/
def Plan.Executes (e : Engine) (k : Setting σ) (p : Plan α) (s : σ) (t : List Event) (a : α) (s' : σ) :
    Prop :=
  Config.Steps e k (.ready p) s t (.ready (.done a)) s'

/-! ## Sequences of steps -/

namespace Config

variable {e : Engine} {k : Setting σ} {c c' c'' : Config α} {s s' s'' : σ} {t t' : List Event}

theorem Steps.single (h : Step e k c s t c' s') : Steps e k c s t c' s' := by
  simpa using Steps.head h .refl

theorem Steps.trans (h : Steps e k c s t c' s') (h' : Steps e k c' s' t' c'' s'') :
    Steps e k c s (t ++ t') c'' s'' := by
  induction h with
  | refl => exact h'
  | head step _ ih =>
    rw [List.append_assoc]
    exact .head step (ih h')

/-- Steps keep what each step keeps. -/
theorem Steps.preserves {P : Config α → σ → Prop}
    (step : ∀ {c s t c' s'}, Step e k c s t c' s' → P c s → P c' s')
    (h : Steps e k c s t c' s') (hp : P c s) : P c' s' := by
  induction h with
  | refl => exact hp
  | head hstep _ ih => exact ih (step hstep hp)

end Config

end Engine

end Geocoding
