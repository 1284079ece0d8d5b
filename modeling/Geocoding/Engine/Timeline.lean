import Geocoding.Engine.Plan

/-!
# Plans on a clock

Running a plan when calls take time. The clock stands still while something can go on and moves to the next
event when everything waits: a call has its answer, or the alarm goes off and fires the token. Jobs are
begun in order, each as soon as fewer than `concurrency` of them are under way. A token that fires ends
every waiting call at that instant.
-/

namespace Geocoding.Engine

/-- A run on a clock: the time in milliseconds, when the alarm goes off, if it still is to, and the state of
the collaborators. -/
structure Timeline (σ : Type) where
  now : Nat := 0
  alarm : Option Nat := none
  state : σ

/-- How a run on a clock sees its collaborators; `fire` is what the alarm does. -/
structure Clockwork (σ : Type) where
  world : World collaborators σ
  fire : σ → σ

/-- How far a task has come: to its end, where it may have broken down, or to a call that takes time. -/
inductive Progress (α : Type) : Type where
  | ended (outcome : Option α)
  | waiting (delay : Nat) (c : Call) (next : collaborators.Reply c → Task α)

/-- A job that waits for the end of a call. -/
structure Waiting where
  row : Row
  due : Nat
  call : Call
  next : collaborators.Reply call → Task Outcome

namespace Timeline

variable {α σ : Type}

/-- Let time pass up to a moment, unless the alarm goes off before it. -/
def passTo (k : Clockwork σ) (t : Timeline σ) (moment : Nat) : Timeline σ :=
  match t.alarm with
  | some due =>
    if due < moment then { now := max t.now due, alarm := none, state := k.fire t.state }
    else { t with now := moment }
  | none => { t with now := moment }

/-- Run a task as far as it goes without time passing. -/
def advance (w : World collaborators σ) : Task α → σ → Progress α × σ
  | .done a, s => (.ended (some a), s)
  | .look next, s => advance w (next (w.fired s)) s
  | .call c next, s => match w.start c s with
    | (0, s) => match w.finish c s with
      | (some reply, s) => advance w (next reply) s
      | (none, s) => (.ended none, s)
    | (delay, s) => (.waiting delay c next, s)

/-- Put a waiting job behind those that are due no later. -/
def enqueue (job : Waiting) : List Waiting → List Waiting
  | [] => [job]
  | first :: rest => if job.due < first.due then job :: first :: rest else first :: enqueue job rest

/-- Give up all waiting calls. What a job still does after that it does at once. -/
def giveUp (w : World collaborators σ) (crew : Crew) :
    List Waiting → σ → Option (List (Row × Outcome)) × σ
  | [], s => (some [], s)
  | job :: rest, s =>
    match (job.next (.error .cancelled)).run w (w.abandon job.call s), crew with
    | (some outcome, s), _ =>
      let (results, s) := giveUp w crew rest s
      (results.map ((job.row, outcome) :: ·), s)
    | (none, s), .workers => giveUp w crew rest s
    | (none, s), .itself => (none, s)

/-- The results and the waiting jobs when a job has been run as far as it goes; `none` if that breaks the
run down. -/
def settle (crew : Crew) (row : Row) (now : Nat) (waiting : List Waiting) :
    Progress Outcome → Option (List (Row × Outcome) × List Waiting)
  | .ended (some outcome) => some ([(row, outcome)], waiting)
  | .ended none => if crew = .workers then some ([], waiting) else none
  | .waiting delay call next => some ([], enqueue ⟨row, now + delay, call, next⟩ waiting)

/-- Run a waiting job from the end of its call. -/
def resume (w : World collaborators σ) (job : Waiting) (s : σ) : Progress Outcome × σ :=
  match w.finish job.call s with
  | (some reply, s) => advance w (job.next reply) s
  | (none, s) => (.ended none, s)

/-- Run jobs, some of which may be under way. Each step begins a job or ends a call; `none` if the run has
broken down. -/
def runJobs (e : Engine) (k : Clockwork σ) (crew : Crew) :
    Nat → List Job → List Waiting → Timeline σ → Option (List (Row × Outcome)) × Timeline σ
  | 0, _, _, t => (some [], t)
  | fuel + 1, jobs, waiting, t =>
    if k.world.fired t.state then
      match giveUp k.world crew waiting t.state with
      | (some ended, state) =>
        let (results, state) := Plan.runJobs e k.world crew jobs state
        (results.map (ended ++ ·), { t with state })
      | (none, state) => (none, { t with state })
    else match (if waiting.length < e.concurrency then jobs else []), waiting with
      | job :: _, _ =>
        let (progress, state) := advance k.world (e.task job) t.state
        match settle crew job.row t.now waiting progress with
        | some (ended, waiting) =>
          let (results, t) := runJobs e k crew fuel jobs.tail waiting { t with state }
          (results.map (ended ++ ·), t)
        | none => (none, { t with state })
      | [], job :: others =>
        let t := t.passTo k job.due
        if k.world.fired t.state then runJobs e k crew fuel jobs waiting t
        else
          let (progress, state) := resume k.world job t.state
          match settle crew job.row t.now others progress with
          | some (ended, waiting) =>
            let (results, t) := runJobs e k crew fuel jobs waiting { t with state }
            (results.map (ended ++ ·), t)
          | none => (none, { t with state })
      | [], [] => (some [], t)

/-- More steps than jobs can take: each is begun, makes a call to every provider and two to the cache, and
the alarm goes off. -/
def stepBound (e : Engine) (jobs : List Job) : Nat :=
  jobs.length * (e.providers.length + 3) + 2

end Timeline

/-- No call takes time. -/
def Instant {σ : Type} (w : World collaborators σ) : Prop :=
  ∀ c s, (w.start c s).1 = 0

/-- Run a plan to its end on a clock; `none` if a collaborator broke down outside a worker. -/
def Plan.runTimed {α σ : Type} (e : Engine) (k : Clockwork σ) :
    Plan α → Timeline σ → Option α × Timeline σ
  | .done a, t => (some a, t)
  | .look next, t => (next (k.world.fired t.state)).runTimed e k t
  | .call c next, t =>
    let (delay, state) := k.world.start c t.state
    let t := { t with state }.passTo k (t.now + delay)
    if delay ≠ 0 ∧ k.world.fired t.state then
      (next (.error .cancelled)).runTimed e k { t with state := k.world.abandon c t.state }
    else match k.world.finish c t.state with
      | (some reply, state) => (next reply).runTimed e k { t with state }
      | (none, state) => (none, { t with state })
  | .pool crew jobs next, t => match Timeline.runJobs e k crew (Timeline.stepBound e jobs) jobs [] t with
    | (some results, t) => (next results).runTimed e k t
    | (none, t) => (none, t)

/-! ## Without delays -/

namespace Timeline

variable {α σ : Type}

theorem advance_eq_run {w : World collaborators σ} (h : Instant w) (p : Task α) (s : σ) :
    advance w p s = (.ended (p.run w s).1, (p.run w s).2) := by
  induction p generalizing s with
  | done a => rfl
  | look next ih => simp [advance, Program.run, ih]
  | call c next ih =>
    have hc := h c s
    simp only [advance, Program.run, World.answer]
    rcases hstart : w.start c s with ⟨delay, s'⟩
    rw [hstart] at hc
    obtain rfl : delay = 0 := hc
    simp only
    split <;> simp_all

theorem runJobs_eq_runJobs {e : Engine} {k : Clockwork σ} (h : Instant k.world) (crew : Crew) (fuel : Nat)
    (jobs : List Job) (t : Timeline σ) (hf : jobs.length < fuel) :
    runJobs e k crew fuel jobs [] t =
      ((Plan.runJobs e k.world crew jobs t.state).1,
        { t with state := (Plan.runJobs e k.world crew jobs t.state).2 }) := by
  induction jobs generalizing fuel t with
  | nil =>
    obtain ⟨fuel, rfl⟩ := Nat.exists_eq_add_of_lt hf
    simp [runJobs, Plan.runJobs, giveUp]
  | cons job jobs ih =>
    obtain ⟨fuel, rfl⟩ := Nat.exists_eq_add_of_lt hf
    have hfuel : jobs.length < jobs.length + 1 + fuel := by omega
    simp only [runJobs, giveUp, List.length_nil, e.concurrency_pos, if_true, advance_eq_run h, List.tail_cons]
    split
    · simp
    case isFalse hfired =>
      simp only [Plan.runJobs, hfired]
      generalize (e.task job).run k.world t.state = outcome
      obtain ⟨result, s⟩ := outcome
      cases crew <;> cases result <;> simp [settle, ih _ _ hfuel]

end Timeline

/-- Where no call takes time and no alarm is set, a plan runs on a clock as it does in order. -/
theorem Plan.runTimed_eq_run {α σ : Type} {e : Engine} {k : Clockwork σ} (h : Instant k.world)
    (p : Plan α) (t : Timeline σ) (ht : t.alarm = none) :
    (p.runTimed e k t).1 = (p.run e k.world t.state).1 ∧
      (p.runTimed e k t).2.state = (p.run e k.world t.state).2 := by
  induction p generalizing t with
  | done a => exact ⟨rfl, rfl⟩
  | look next ih => exact ih _ t ht
  | call c next ih =>
    have hc := h c t.state
    rw [runTimed, run, World.answer]
    rcases hstart : k.world.start c t.state with ⟨delay, s⟩
    rw [hstart] at hc
    obtain rfl : delay = 0 := hc
    simp only [Timeline.passTo, ht]
    rw [if_neg fun hd => hd.1 rfl]
    rcases k.world.finish c s with ⟨_ | reply, s'⟩
    · exact ⟨rfl, rfl⟩
    · exact ih reply _ rfl
  | pool crew jobs next ih =>
    -- Without delays a job takes one step, so the bound on the steps is not reached.
    have hf : jobs.length < Timeline.stepBound e jobs := by
      have hle : jobs.length * 1 ≤ jobs.length * (e.providers.length + 3) :=
        Nat.mul_le_mul_left _ (by omega)
      rw [Timeline.stepBound]
      omega
    simp only [runTimed, run, Timeline.runJobs_eq_runJobs h _ _ _ _ hf]
    rcases Plan.runJobs e k.world crew jobs t.state with ⟨_ | results, s⟩
    · exact ⟨rfl, rfl⟩
    · exact ih _ _ ht

end Geocoding.Engine
