import Geocoding.Engine.Cascade

/-!
# Plans for many addresses

A plan is a program that may also hand out jobs to a pool and wait for them. The pool may belong to workers,
who come and go apart from the run, or to the run itself, which then does several jobs at a time.

`Plan.run` does the jobs of a pool one after the other, each to its end. Other ways to interleave them need
not agree with it call by call; what they have in common is a matter of theorems.
-/

namespace Geocoding.Engine

/-- A row of a batch: its position and its address. -/
structure Row where
  index : Nat
  address : Address
deriving DecidableEq

/-- The cache key of a row. -/
def Row.key (row : Row) : String :=
  row.address.key

/-- The rows of a list of addresses. -/
def rowsOf (addresses : List Address) : List Row :=
  addresses.zipIdx.map fun (a, i) => ⟨i, a⟩

/-- What is done about a row. -/
inductive Stage where
  /-- Look it up in the cache. -/
  | lookup
  /-- Keep its outcome in the cache. -/
  | keep (r : Resolution)
  /-- Ask the providers before a position, without the cache. -/
  | leading (stop : Nat)
  /-- Resolve from a position on; `prior` was asked last before. -/
  | resolve (first : Nat) (prior : Option String)
deriving DecidableEq

/-- Something to do about a row. -/
structure Job where
  row : Row
  stage : Stage
deriving DecidableEq

/-- What comes of a job: a failure, or a resolution if it has one to bring. -/
abbrev Outcome : Type := Except Error (Option Resolution)

/-- The work of a job. -/
def task (e : Engine) (j : Job) : Task Outcome :=
  match j.stage with
  | .lookup => e.lookup j.row.key
  | .keep r => do
    e.keep j.row.key r
    return .ok none
  | .leading stop => return (← e.cascade j.row.address 0 stop none).map some
  | .resolve first prior => return (← e.resolve j.row.address first prior).map some

/-- The resolutions that jobs have brought. -/
def resolved (results : List (Row × Outcome)) : List (Row × Resolution) :=
  results.filterMap fun (row, outcome) => match outcome with
    | .ok (some r) => some (row, r)
    | _ => none

/-- Whose jobs the jobs of a pool are. -/
inductive Crew where
  /-- Those of workers: none is begun once the token has fired, and a breakdown costs nothing but its job. -/
  | workers
  /-- Those of the run itself: all of them are begun, and the run breaks down with any of them. -/
  | itself
deriving DecidableEq

/-- A program that may hand out jobs. -/
inductive Plan (α : Type) : Type where
  | done (a : α)
  | look (next : Bool → Plan α)
  | call (c : Call) (next : collaborators.Reply c → Plan α)
  | pool (crew : Crew) (jobs : List Job) (next : List (Row × Outcome) → Plan α)

namespace Plan

variable {α β σ : Type}

/-- Go on with the outcome of a plan. -/
def bind : Plan α → (α → Plan β) → Plan β
  | done a, f => f a
  | look next, f => look fun fired => (next fired).bind f
  | call c next, f => call c fun reply => (next reply).bind f
  | pool crew jobs next, f => pool crew jobs fun results => (next results).bind f

instance : Monad Plan where
  pure := done
  bind := bind

@[simp] theorem pure_eq_done (a : α) : (pure a : Plan α) = done a := rfl

@[simp] theorem bind_eq_bind (p : Plan α) (f : α → Plan β) : p >>= f = p.bind f := rfl

@[simp] theorem done_bind (a : α) (f : α → Plan β) : (done a).bind f = f a := rfl

/-- A program without jobs as a plan. -/
def ofTask : Task α → Plan α
  | .done a => done a
  | .look next => look fun fired => ofTask (next fired)
  | .call c next => call c fun reply => ofTask (next reply)

@[simp] theorem bind_done (p : Plan α) : p.bind done = p := by
  induction p with
  | done a => rfl
  | look next ih => simp [bind, ih]
  | call c next ih => simp [bind, ih]
  | pool crew jobs next ih => simp [bind, ih]

theorem bind_assoc {γ : Type} (p : Plan α) (f : α → Plan β) (g : β → Plan γ) :
    (p.bind f).bind g = p.bind fun a => (f a).bind g := by
  induction p with
  | done a => rfl
  | look next ih => simp [bind, ih]
  | call c next ih => simp [bind, ih]
  | pool crew jobs next ih => simp [bind, ih]

/-- Whether the token has fired. -/
def fired : Plan Bool :=
  look done

/-- Do jobs of the run itself, several at a time. -/
def each (jobs : List Job) : Plan (List (Row × Outcome)) :=
  pool .itself jobs done

/-- Hand out jobs to workers and wait for the resolutions that they bring. -/
def finish (jobs : List Job) : Plan (List (Row × Resolution)) :=
  pool .workers jobs fun results => done (resolved results)

/-- Do jobs one after the other; `none` if the run has broken down. -/
def runJobs (e : Engine) (w : World collaborators σ) (crew : Crew) :
    List Job → σ → Option (List (Row × Outcome)) × σ
  | [], s => (some [], s)
  | j :: jobs, s =>
    if crew = .workers ∧ w.fired s then (some [], s)
    else match (e.task j).run w s, crew with
      | (some outcome, s), _ =>
        let (results, s) := runJobs e w crew jobs s
        (results.map ((j.row, outcome) :: ·), s)
      | (none, s), .workers => runJobs e w crew jobs s
      | (none, s), .itself => (none, s)

/-- Run a plan to its end; `none` if a collaborator broke down outside a worker. -/
def run (e : Engine) (w : World collaborators σ) : Plan α → σ → Option α × σ
  | done a, s => (some a, s)
  | look next, s => (next (w.fired s)).run e w s
  | call c next, s => match w.answer c s with
    | (some reply, s) => (next reply).run e w s
    | (none, s) => (none, s)
  | pool crew jobs next, s => match runJobs e w crew jobs s with
    | (some results, s) => (next results).run e w s
    | (none, s) => (none, s)

theorem run_bind (e : Engine) (w : World collaborators σ) (p : Plan α) (f : α → Plan β) (s : σ) :
    (p.bind f).run e w s = match p.run e w s with
      | (some a, s) => (f a).run e w s
      | (none, s) => (none, s) := by
  induction p generalizing s with
  | done a => rfl
  | look next ih => simp [bind, run, ih]
  | call c next ih =>
    simp only [bind, run]
    split <;> simp_all
  | pool crew jobs next ih =>
    simp only [bind, run]
    split <;> simp_all

/-- As a plan, a program runs as it does on its own. -/
theorem run_ofTask (e : Engine) (w : World collaborators σ) (p : Task α) (s : σ) :
    (ofTask p).run e w s = p.run w s := by
  induction p generalizing s with
  | done a => rfl
  | look next ih => simp [ofTask, run, Program.run, ih]
  | call c next ih =>
    simp only [ofTask, run, Program.run]
    split <;> simp_all

end Plan

/-- The slots of a batch: what was written last into each, or the default. -/
def fill (size : Nat) (writes : List (Row × Resolution)) : List Resolution :=
  (writes.foldl (fun slots w => slots.setIfInBounds w.1.index w.2) (Array.replicate size {})).toList

theorem length_fill (size : Nat) (writes : List (Row × Resolution)) :
    (fill size writes).length = size := by
  have h : ∀ slots : Array Resolution,
      (writes.foldl (fun slots w => slots.setIfInBounds w.1.index w.2) slots).size = slots.size := by
    induction writes with
    | nil => intro _; rfl
    | cons w writes ih => intro slots; simp [ih]
  simp [fill, h]

/-- Resolve many addresses, one by one. The outcome has a slot for each of them, in order; a slot that no
worker came to fill is unmatched with an empty source. -/
def batch (_ : Engine) (addresses : List Address) : Plan (List Resolution) := do
  let rows := rowsOf (Address.assignIds addresses)
  let results ← Plan.finish (rows.map fun row => ⟨row, .resolve 0 none⟩)
  return fill rows.length results

end Geocoding.Engine
