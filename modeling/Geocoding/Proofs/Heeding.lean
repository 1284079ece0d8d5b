import Geocoding.Engine.Bulk
import Geocoding.Engine.Interleaving

/-!
# Heeding the token

A program heeds the token if every call in it comes right after a look that has not seen the token fired.
All programs of the engine do, so in no order of steps is a call started once the token has fired.
-/

namespace Geocoding

namespace Program

variable {I : Interface} {α β : Type}

/-- The program makes no call but after a look that has cleared it; `clear` says that there has just been
one. -/
def Heeds : Program I α → Bool → Prop
  | done _, _ => True
  | look next, _ => (next false).Heeds true ∧ (next true).Heeds false
  | call _ next, clear => clear = true ∧ ∀ reply, (next reply).Heeds false

theorem Heeds.any {p : Program I α} {clear : Bool} (h : p.Heeds false) : p.Heeds clear := by
  cases p with
  | done a => trivial
  | look next => exact h
  -- A call that no look has just cleared is ruled out by `h`.
  | call c next => exact absurd h.1 Bool.false_ne_true

theorem Heeds.bind {p : Program I α} {f : α → Program I β} {clear : Bool} (h : p.Heeds clear)
    (hf : ∀ a, (f a).Heeds false) : (p.bind f).Heeds clear := by
  induction p generalizing clear with
  | done a => exact (hf a).any
  | look next ih => exact ⟨ih false h.1, ih true h.2⟩
  | call c next ih => exact ⟨h.1, fun reply => ih reply (h.2 reply)⟩

/-- Where no call comes first, it does not matter whether a look has just cleared one. -/
theorem Heeds.forget {p : Program I α} {clear : Bool} (h : p.Heeds clear) (hp : p.isCall = false) :
    p.Heeds false := by
  cases p with
  | done a => trivial
  | look next => exact h
  | call c next => cases hp

theorem heeds_fired : (Program.fired : Program I Bool).Heeds false := ⟨trivial, trivial⟩

theorem heeds_guarded (c : I.Call) : (guarded I c).Heeds false := ⟨⟨rfl, fun _ => trivial⟩, trivial⟩

/-- What comes after a look heeds the token, given what it has seen. -/
theorem Heeds.looked {p : Program I α} (h : p.Heeds false) (fired : Bool) :
    (p.looked fired).Heeds (!fired) := by
  cases p with
  | look next => cases fired with
    | false => exact h.1
    | true => exact h.2
  | done a => trivial
  | call c next => exact h.any

end Program

namespace Engine

variable {α β : Type}

/-! ## Tasks of the engine -/

theorem heeds_lookup (e : Engine) (key : String) : (e.lookup key).Heeds false := by
  unfold lookup
  split
  · apply (Program.heeds_guarded _).bind
    intro reply
    cases reply <;> trivial
  · trivial

theorem heeds_keep (e : Engine) (key : String) (r : Resolution) : (e.keep key r).Heeds false := by
  unfold keep
  split
  · exact (Program.heeds_guarded _).bind fun _ => trivial
  · trivial

theorem heeds_askAll (a : Address) (providers : List (Provider × Nat)) (last : Option String) :
    (askAll a providers last).Heeds false := by
  induction providers generalizing last with
  | nil =>
    apply Program.heeds_fired.bind
    intro fired
    cases fired <;> trivial
  | cons provider rest ih =>
    obtain ⟨p, position⟩ := provider
    -- Both what passes an unavailable provider over and what asks an available one go on with the rest.
    apply Program.heeds_fired.bind
    intro fired
    cases fired with
    | true => trivial
    | false =>
      simp only [Bool.false_eq_true, if_false]
      split
      · exact ih last
      · apply (Program.heeds_guarded _).bind
        intro reply
        cases reply with
        | error error => exact ih _
        | ok r =>
          simp only
          split
          · trivial
          · exact ih _

theorem heeds_resolve (e : Engine) (a : Address) (first : Nat) (prior : Option String) :
    (e.resolve a first prior).Heeds false := by
  apply Program.heeds_fired.bind
  intro fired
  cases fired with
  | true => trivial
  | false =>
    simp only [Bool.false_eq_true, if_false]
    apply (e.heeds_lookup a.key).bind
    intro found
    match found with
    | .error error => trivial
    | .ok (some hit) => trivial
    | .ok none =>
      apply (heeds_askAll a _ prior).bind
      intro outcome
      match outcome with
      | .error error => trivial
      | .ok r => exact (e.heeds_keep a.key r).bind fun _ => trivial

theorem heeds_task (e : Engine) (j : Job) : (e.task j).Heeds false := by
  unfold task
  split
  · exact e.heeds_lookup _
  · exact (e.heeds_keep _ _).bind fun _ => trivial
  · exact (heeds_askAll _ _ none).bind fun _ => trivial
  · exact (e.heeds_resolve _ _ _).bind fun _ => trivial

/-! ## Plans of the engine -/

/-- `Program.Heeds` for plans. Jobs need no mention, since all of them heed the token. -/
def Plan.Heeds : Plan α → Bool → Prop
  | done _, _ => True
  | look next, _ => (next false).Heeds true ∧ (next true).Heeds false
  | call _ next, clear => clear = true ∧ ∀ reply, (next reply).Heeds false
  | pool _ _ next, _ => ∀ results, (next results).Heeds false

theorem Plan.Heeds.any {p : Plan α} {clear : Bool} (h : p.Heeds false) : p.Heeds clear := by
  cases p with
  | done a => trivial
  | look next => exact h
  | call c next => exact absurd h.1 Bool.false_ne_true
  | pool crew jobs next => exact h

theorem Plan.Heeds.forget {p : Plan α} {clear : Bool} (h : p.Heeds clear) (hp : p.isCall = false) :
    p.Heeds false := by
  cases p with
  | done a => trivial
  | look next => exact h
  | call c next => cases hp
  | pool crew jobs next => exact h

theorem Plan.Heeds.bind {p : Plan α} {f : α → Plan β} {clear : Bool} (h : p.Heeds clear)
    (hf : ∀ a, (f a).Heeds false) : (p.bind f).Heeds clear := by
  induction p generalizing clear with
  | done a => exact (hf a).any
  | look next ih => exact ⟨ih false h.1, ih true h.2⟩
  | call c next ih => exact ⟨h.1, fun reply => ih reply (h.2 reply)⟩
  | pool crew jobs next ih =>
    intro results
    exact ih results (h results)

theorem Plan.heeds_ofTask {p : Task α} {clear : Bool} (h : p.Heeds clear) :
    (Plan.ofTask p).Heeds clear := by
  induction p generalizing clear with
  | done a => trivial
  | look next ih => exact ⟨ih false h.1, ih true h.2⟩
  | call c next ih => exact ⟨h.1, fun reply => ih reply (h.2 reply)⟩

theorem Plan.Heeds.looked {p : Plan α} (h : p.Heeds false) (fired : Bool) :
    (p.looked fired).Heeds (!fired) := by
  cases p with
  | look next => cases fired with
    | false => exact h.1
    | true => exact h.2
  | done a => trivial
  | call c next => exact h.any
  | pool crew jobs next => exact h

theorem heeds_batch (e : Engine) (addresses : List Address) : (e.batch addresses).Heeds false :=
  fun _ => trivial

theorem heeds_keepAll (results : List (Row × Resolution)) : (keepAll results).Heeds false :=
  fun _ => trivial

theorem heeds_submitAll (b : BulkProvider) (priors : List (Nat × String)) (chunks : List (List Row)) :
    (submitAll b priors chunks).Heeds false := by
  induction chunks with
  | nil => trivial
  | cons chunk chunks ih =>
    apply Plan.Heeds.bind (p := Plan.fired) ⟨trivial, trivial⟩
    intro fired
    cases fired with
    | true => trivial
    | false =>
      apply (Plan.heeds_ofTask (Program.heeds_guarded _)).bind
      intro reply
      cases reply with
      | error error =>
        simp only
        split
        · trivial
        · exact ih.bind fun _ => trivial
      | ok answers => exact (heeds_keepAll _).bind fun _ => ih.bind fun _ => trivial

theorem heeds_submitRows (e : Engine) (b : BulkProvider) (priors : List (Nat × String)) (rows : List Row) :
    (e.submitRows b priors rows).Heeds false := by
  apply (heeds_submitAll b priors _).bind
  rintro ⟨settled, completed⟩
  cases completed with
  | false => trivial
  | true => exact fun _ => trivial

theorem heeds_leadAndSubmit (e : Engine) (b : BulkProvider) (rows : List Row) :
    (e.leadAndSubmit b rows).Heeds false := by
  unfold leadAndSubmit
  split
  · intro results
    apply (heeds_keepAll _).bind
    intro _
    apply Plan.Heeds.bind (p := Plan.fired) ⟨trivial, trivial⟩
    intro fired
    cases fired with
    | true => trivial
    | false => exact (e.heeds_submitRows b _ _).bind fun _ => trivial
  · exact e.heeds_submitRows b [] rows

theorem heeds_bulk (e : Engine) (addresses : List Address) : (e.bulk addresses).Heeds false := by
  unfold bulk
  split
  · exact e.heeds_batch addresses
  · refine Plan.Heeds.bind ?_ fun _ => trivial
    intro probes
    simp only [Plan.done_bind]
    split
    · trivial
    · exact (e.heeds_leadAndSubmit _ _).bind fun _ => trivial

/-! ## Runs -/

/-- What is left of a task under way heeds the token. -/
def Strand.Heeds : Strand α → Prop
  | .ready p => p.Heeds false
  | .waiting _ next => ∀ reply, (next reply).Heeds false

/-- What is left of a run heeds the token. -/
def Config.Heeds : Config α → Prop
  | .ready p => p.Heeds false
  | .waiting _ next => ∀ reply, (next reply).Heeds false
  | .pool P next => (∀ w ∈ P.working, w.strand.Heeds) ∧ ∀ results, (next results).Heeds false
  | .broken => True

section Run

variable {σ : Type} {e : Engine} {k : Setting σ} {s s' : σ} {t : List Event}

theorem Strand.Step.heeds {who : Option Job} {strand strand' : Strand α}
    (step : strand.Step k who s t strand' s') (h : strand.Heeds) :
    strand'.Heeds ∧ ∀ who' c, Event.started who' c ∈ t → k.world.fired s = false := by
  cases step with
  | look hcall => exact ⟨(Program.Heeds.looked h _).forget hcall, by simp⟩
  | start hp =>
    -- A look and the call behind it are one step: what comes after the look is the call that it has cleared.
    have hlooked := Program.Heeds.looked h (k.world.fired s)
    rw [hp] at hlooked
    exact ⟨hlooked.2, fun _ _ _ => by simpa using hlooked.1⟩
  | finish _ => exact ⟨h _, by simp⟩
  | giveUp _ => exact ⟨h _, by simp⟩

theorem Pool.Step.heeds {pool pool' : Pool} (step : pool.Step e k s t pool' s')
    (h : ∀ w ∈ pool.working, w.strand.Heeds) :
    (∀ w ∈ pool'.working, w.strand.Heeds) ∧
      ∀ who c, Event.started who c ∈ t → k.world.fired s = false := by
  cases step with
  | @begin crew j jobs ws rs _ _ _ =>
    refine ⟨?_, by simp⟩
    intro w hw
    rcases List.mem_append.1 hw with hw | hw
    · exact h w hw
    · obtain rfl := List.mem_singleton.1 hw
      exact e.heeds_task j
  | close _ => exact ⟨h, by simp⟩
  | @work crew jobs ws ws' j strand strand' rs _ _ _ hstep =>
    obtain ⟨hj, hstarted⟩ := hstep.heeds (h ⟨j, strand⟩ (by simp))
    refine ⟨?_, hstarted⟩
    intro w hw
    simp only [List.mem_append, List.mem_cons] at hw
    rcases hw with hw | rfl | hw
    · exact h w (by simp [hw])
    · exact hj
    · exact h w (by simp [hw])
  | leave | lose _ =>
    refine ⟨fun w hw => h w ?_, by simp⟩
    -- The jobs that stay were all there before.
    simp only [List.mem_append, List.mem_cons] at hw ⊢
    exact hw.imp_right .inr

theorem Config.Step.heeds {c c' : Config α} (step : Config.Step e k c s t c' s') (h : c.Heeds) :
    c'.Heeds ∧ ∀ who call, Event.started who call ∈ t → k.world.fired s = false := by
  cases step with
  | drift _ => exact ⟨h, by simp⟩
  | look hcall => exact ⟨(Plan.Heeds.looked h _).forget hcall, by simp⟩
  | start hp =>
    have hlooked := Plan.Heeds.looked h (k.world.fired s)
    rw [hp] at hlooked
    exact ⟨hlooked.2, fun _ _ _ => by simpa using hlooked.1⟩
  | finish _ => exact ⟨h _, by simp⟩
  | giveUp _ => exact ⟨h _, by simp⟩
  | enter => exact ⟨⟨by simp, h⟩, by simp⟩
  | work hstep =>
    obtain ⟨hworking, hstarted⟩ := hstep.heeds h.1
    exact ⟨⟨hworking, h.2⟩, hstarted⟩
  | leave => exact ⟨h.2 _, by simp⟩
  | breakDown _ => exact ⟨trivial, by simp⟩
  | collapse _ => exact ⟨trivial, by simp⟩

/-- In a run of a plan that heeds the token, no call is started once the token has fired. -/
theorem Plan.Heeds.not_fired {p : Plan α} (h : p.Heeds false) {c c' : Config α} {s₀ : σ} {t₀ : List Event}
    (steps : Config.Steps e k (.ready p) s₀ t₀ c s) (step : Config.Step e k c s t c' s')
    {who : Option Job} {call : Call} (hstarted : Event.started who call ∈ t) : k.world.fired s = false :=
  (step.heeds (steps.preserves (P := fun c _ => c.Heeds) (fun step h => (step.heeds h).1) h)).2 who call
    hstarted

end Run

end Engine

end Geocoding
