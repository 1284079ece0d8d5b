import Geocoding.Error

/-!
# Programs that ask collaborators

What the library does with databases, web services and caches is described as a tree: a program is done,
or looks whether its run has been called off (whether the *token* has fired), or calls a collaborator and
goes on with the reply. What a collaborator does is left open. A `World` says it, and running a program in
a world gives its outcome; the same program can be run in scripted worlds and reasoned about in all of them.

`Program.guarded` is the only way in which programs here give way to the token: a call is not started once
the token has fired, and is given up, with the reply `cancelled`, when it fires while the call waits.
-/

namespace Geocoding

/-- What can be asked, and the type of the answer to each question. Every call may also fail. -/
structure Interface where
  Call : Type
  Answer : Call → Type

/-- The reply to a call: a failure or an answer. -/
abbrev Interface.Reply (I : Interface) (c : I.Call) : Type :=
  Except Error (I.Answer c)

/-- A program that asks collaborators. -/
inductive Program (I : Interface) (α : Type) : Type where
  | done (a : α)
  | look (next : Bool → Program I α)
  | call (c : I.Call) (next : I.Reply c → Program I α)

namespace Program

variable {I J : Interface} {α β σ : Type}

/-- Go on with the outcome of a program. -/
def bind : Program I α → (α → Program I β) → Program I β
  | done a, f => f a
  | look next, f => look fun fired => (next fired).bind f
  | call c next, f => call c fun reply => (next reply).bind f

instance : Monad (Program I) where
  pure := done
  bind := bind

@[simp] theorem pure_eq_done (a : α) : (pure a : Program I α) = done a := rfl

@[simp] theorem bind_eq_bind (p : Program I α) (f : α → Program I β) : p >>= f = p.bind f := rfl

@[simp] theorem done_bind (a : α) (f : α → Program I β) : (done a).bind f = f a := rfl

@[simp] theorem bind_done (p : Program I α) : p.bind done = p := by
  induction p with
  | done a => rfl
  | look next ih => simp [bind, ih]
  | call c next ih => simp [bind, ih]

theorem bind_assoc {γ : Type} (p : Program I α) (f : α → Program I β) (g : β → Program I γ) :
    (p.bind f).bind g = p.bind fun a => (f a).bind g := by
  induction p with
  | done a => rfl
  | look next ih => simp [bind, ih]
  | call c next ih => simp [bind, ih]

/-- Make a call. -/
def ask (I : Interface) (c : I.Call) : Program I (I.Reply c) :=
  call c done

/-- Whether the token has fired. -/
def fired : Program I Bool :=
  look done

/-- Make a call unless the token has fired. -/
def guarded (I : Interface) (c : I.Call) : Program I (I.Reply c) :=
  look fun fired => if fired then done (.error .cancelled) else call c done

/-- Carry out every call of a program by a program of another interface. -/
def through (carry : (c : I.Call) → Program J (I.Reply c)) : Program I α → Program J α
  | done a => done a
  | look next => look fun fired => (next fired).through carry
  | call c next => (carry c).bind fun reply => (next reply).through carry

end Program

/-- What the collaborators do, as far as a run can see it, on a state of their own. A call that is started
takes some time (in milliseconds, none for an answer at once); when the time is over it finishes, and when
the token fires before that it is abandoned. To finish without a reply is to break down: the run that
waits for it breaks down as well. -/
structure World (I : Interface) (σ : Type) where
  fired : σ → Bool
  start : I.Call → σ → Nat × σ
  finish : (c : I.Call) → σ → Option (I.Reply c) × σ
  abandon : I.Call → σ → σ

namespace World

variable {I J : Interface} {σ : Type}

/-- A world in which every call is answered at once. -/
def immediate (fired : σ → Bool) (answer : (c : I.Call) → σ → Option (I.Reply c) × σ) : World I σ where
  fired := fired
  start := fun _ s => (0, s)
  finish := answer
  abandon := fun _ s => s

/-- Make a call and wait for its end. -/
def answer (w : World I σ) (c : I.Call) (s : σ) : Option (I.Reply c) × σ :=
  w.finish c (w.start c s).2

end World

namespace Program

variable {I : Interface} {α β σ : Type}

/-- Run a program to its end, every call in its place; `none` if a collaborator broke down. -/
def run (w : World I σ) : Program I α → σ → Option α × σ
  | done a, s => (some a, s)
  | look next, s => (next (w.fired s)).run w s
  | call c next, s => match w.answer c s with
    | (some reply, s) => (next reply).run w s
    | (none, s) => (none, s)

theorem run_bind (w : World I σ) (p : Program I α) (f : α → Program I β) (s : σ) :
    (p.bind f).run w s = match p.run w s with
      | (some a, s) => (f a).run w s
      | (none, s) => (none, s) := by
  induction p generalizing s with
  | done a => rfl
  | look next ih => simp [bind, run, ih]
  | call c next ih =>
    simp only [bind, run]
    split <;> simp_all

end Program

end Geocoding
