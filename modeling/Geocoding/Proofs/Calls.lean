import Geocoding.Engine.Plan
import Geocoding.Proofs.Cascade

/-!
# The calls of a task

A program branches on the replies it gets, so what is said of the calls that it makes holds along every branch:
how many there are, and which. A task of the engine asks every provider once at most, and the cache twice.
-/

namespace Geocoding

namespace Program

variable {I : Interface} {α β : Type}

/-- A program makes no more than that many calls. -/
def Within : Program I α → Nat → Prop
  | done _, _ => True
  | look next, n => ∀ fired, (next fired).Within n
  | call _ _, 0 => False
  | call _ next, n + 1 => ∀ reply, (next reply).Within n

theorem Within.mono {p : Program I α} {m n : Nat} (h : p.Within m) (hle : m ≤ n) : p.Within n := by
  induction p generalizing m n with
  | done a => trivial
  | look next ih =>
    intro fired
    exact ih fired (h fired) hle
  | call c next ih =>
    cases m with
    | zero => exact h.elim
    | succ m =>
      obtain ⟨n, rfl⟩ : ∃ l, n = l + 1 := ⟨n - 1, by omega⟩
      intro reply
      exact ih reply (h reply) (by omega)

theorem Within.bind {p : Program I α} {f : α → Program I β} {m n : Nat} (h : p.Within m)
    (hf : ∀ a, (f a).Within n) : (p.bind f).Within (m + n) := by
  induction p generalizing m with
  | done a => exact (hf a).mono (by omega)
  | look next ih =>
    intro fired
    exact ih fired (h fired)
  | call c next ih =>
    cases m with
    | zero => exact h.elim
    | succ m =>
      rw [Nat.add_right_comm]
      intro reply
      exact ih reply (h reply)

theorem within_guarded (c : I.Call) : (guarded I c).Within 1 := by
  intro fired
  cases fired with
  | true => trivial
  | false => exact fun _ => trivial

/-- A program makes no other calls than those. -/
def Only (P : I.Call → Prop) : Program I α → Prop
  | done _ => True
  | look next => ∀ fired, (next fired).Only P
  | call c next => P c ∧ ∀ reply, (next reply).Only P

theorem Only.mono {P Q : I.Call → Prop} {p : Program I α} (h : p.Only P) (hle : ∀ c, P c → Q c) : p.Only Q := by
  induction p with
  | done a => trivial
  | look next ih => exact fun fired => ih fired (h fired)
  | call c next ih => exact ⟨hle c h.1, fun reply => ih reply (h.2 reply)⟩

theorem Only.bind {P : I.Call → Prop} {p : Program I α} {f : α → Program I β} (h : p.Only P)
    (hf : ∀ a, (f a).Only P) : (p.bind f).Only P := by
  induction p with
  | done a => exact hf a
  | look next ih => exact fun fired => ih fired (h fired)
  | call c next ih => exact ⟨h.1, fun reply => ih reply (h.2 reply)⟩

theorem only_guarded (c : I.Call) : (guarded I c).Only (· = c) := by
  intro fired
  cases fired with
  | true => trivial
  | false => exact ⟨rfl, fun _ => trivial⟩

end Program

namespace Engine

theorem within_lookup (e : Engine) (key : String) : (e.lookup key).Within 1 := by
  unfold lookup
  split
  · apply (Program.within_guarded _).bind (n := 0)
    intro reply
    cases reply <;> trivial
  · trivial

theorem within_keep (e : Engine) (key : String) (r : Resolution) : (e.keep key r).Within 1 := by
  unfold keep
  split
  · exact (Program.within_guarded _).bind (n := 0) fun _ => trivial
  · trivial

theorem within_askAll (a : Address) (providers : List (Provider × Nat)) (last : Option String) :
    (askAll a providers last).Within providers.length := by
  induction providers generalizing last with
  | nil =>
    intro fired
    cases fired <;> trivial
  | cons provider rest ih =>
    obtain ⟨p, position⟩ := provider
    intro fired
    cases fired with
    | true => trivial
    | false =>
      simp only
      split
      · exact (ih last).mono (Nat.le_succ _)
      · rw [List.length_cons, Nat.add_comm]
        apply (Program.within_guarded _).bind
        intro reply
        cases reply with
        | error error => exact ih _
        | ok r =>
          simp only
          split
          · trivial
          · exact ih _

theorem within_cascade (e : Engine) (a : Address) (first stop : Nat) (prior : Option String) :
    (e.cascade a first stop prior).Within e.providers.length := by
  refine (within_askAll a _ prior).mono ?_
  simpa using e.span_sublist.length_le

theorem within_resolve (e : Engine) (a : Address) (first : Nat) (prior : Option String) :
    (e.resolve a first prior).Within (1 + (e.providers.length + 1)) := by
  intro fired
  cases fired with
  | true => trivial
  | false =>
    apply (e.within_lookup a.key).bind
    intro found
    match found with
    | .error error => trivial
    | .ok (some hit) => trivial
    | .ok none =>
      apply (e.within_cascade a first e.providers.length prior).bind
      intro outcome
      match outcome with
      | .error error => trivial
      | .ok r => exact (e.within_keep a.key r).bind (n := 0) fun _ => trivial

/-- A task asks every provider at most once, and the cache twice. -/
theorem within_task (e : Engine) (j : Job) : (e.task j).Within (e.providers.length + 2) := by
  unfold task
  split
  · exact (e.within_lookup _).mono (by omega)
  -- In each of the other stages nothing is called behind what does the work.
  all_goals refine Program.Within.bind (m := e.providers.length + 2) (n := 0) ?_ fun _ => trivial
  · exact (e.within_keep _ _).mono (by omega)
  · exact (e.within_cascade _ _ _ _).mono (by omega)
  · exact (e.within_resolve _ _ _).mono (by omega)

/-! ## Which calls -/

theorem only_lookup (e : Engine) (key : String) : (e.lookup key).Only (· = Call.check key) := by
  unfold lookup
  split
  · apply (Program.only_guarded _).bind
    intro reply
    cases reply <;> trivial
  · trivial

theorem only_keep (e : Engine) (key : String) (r : Resolution) : (e.keep key r).Only (· = Call.store key r) := by
  unfold keep
  split
  · exact (Program.only_guarded _).bind fun _ => trivial
  · trivial

/-- Only the given providers are asked, and only about the address. -/
theorem only_askAll (a : Address) (providers : List (Provider × Nat)) (last : Option String) :
    (askAll a providers last).Only fun c => ∃ q ∈ providers, c = Call.geocode q.2 a := by
  induction providers generalizing last with
  | nil =>
    intro fired
    cases fired <;> trivial
  | cons provider rest ih =>
    have hrest : ∀ last, (askAll a rest last).Only fun c => ∃ q ∈ provider :: rest, c = Call.geocode q.2 a := by
      intro last
      refine (ih last).mono ?_
      rintro c ⟨q, hq, hc⟩
      exact ⟨q, List.mem_cons_of_mem _ hq, hc⟩
    intro fired
    cases fired with
    | true => trivial
    | false =>
      simp only
      split
      · exact hrest last
      · apply ((Program.only_guarded _).mono fun c hc => ⟨provider, List.mem_cons_self, hc⟩).bind
        intro reply
        cases reply with
        | error error => exact hrest _
        | ok r =>
          simp only
          split
          · trivial
          · exact hrest _

end Engine

end Geocoding
