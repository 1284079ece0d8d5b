import Geocoding.Proofs.BrokenCache

/-!
# Where the token never fires

A look at the token shows nothing of itself. So as long as the token does not fire, tasks that differ in nothing
but their looks have the same runs, whatever is replied to their calls and whatever happens in between.

If moreover the providers have fixed answers about an address, a task that asks them about this address and calls
nobody else has one history and one outcome, and this can be read off the task.
-/

namespace Geocoding

namespace Program

variable {I : Interface} {α β : Type}

/-- What is left of a program where the token never fires: its calls, without the looks. -/
def unwatched : Program I α → Program I α
  | done a => done a
  | look next => (next false).unwatched
  | call c next => call c fun reply => (next reply).unwatched

theorem unwatched_looked (p : Program I α) : (p.looked false).unwatched = p.unwatched := by
  cases p <;> rfl

theorem unwatched_bind (p : Program I α) (f : α → Program I β) :
    (p.bind f).unwatched = p.unwatched.bind fun a => (f a).unwatched := by
  induction p with
  | done a => rfl
  | look next ih => exact ih false
  | call c next ih => exact congrArg (call c) (funext fun reply => ih reply)

end Program

namespace Engine

variable {α σ : Type} {e : Engine} {k : Setting σ} {s s' : σ} {t : List Event}

/-! ## The same runs -/

/-- Tasks under way that differ in looks at most. -/
inductive Strand.SameCalls : Strand α → Strand α → Prop
  | ready {p q : Task α} (h : p.unwatched = q.unwatched) : SameCalls (.ready p) (.ready q)
  | waiting {c : Call} {next next' : collaborators.Reply c → Task α}
      (h : ∀ reply, (next reply).unwatched = (next' reply).unwatched) : SameCalls (.waiting c next) (.waiting c next')

section Runs

variable {who : Option Job} {strand strand' strand₁ : Strand α}

/-- A task looks until it is done. -/
theorem Strand.steps_of_unwatched_done (hclear : ∀ s, k.world.fired s = false) {p : Task α} {a : α}
    (h : p.unwatched = .done a) (s : σ) : Strand.Steps k who (.ready p) s [] (.ready (.done a)) s := by
  induction p with
  | done a' =>
    cases h
    exact .refl
  | look next ih =>
    refine (ih false h).of_look hclear ?_
    rintro _ ⟨⟩
    rfl
  | call c next _ => cases h

/-- A task looks until it makes its next call. -/
theorem Strand.steps_of_unwatched_call (hclear : ∀ s, k.world.fired s = false) {p : Task α} {c : Call}
    {next : collaborators.Reply c → Task α} (h : p.unwatched = .call c next) (s : σ) :
    ∃ next', (∀ reply, (next' reply).unwatched = next reply) ∧
      Strand.Steps k who (.ready p) s [.started who c] (.waiting c next') (k.world.start c s).2 := by
  induction p with
  | done a => cases h
  | look next' ih =>
    obtain ⟨next', hnext, steps⟩ := ih false h
    refine ⟨next', hnext, steps.of_look hclear ?_⟩
    rintro _ ⟨⟩
  | call c' next' _ =>
    cases h
    exact ⟨next', fun _ => rfl, .single (.start rfl)⟩

/-- A step of a task can be followed where there are other looks. -/
theorem Strand.SameCalls.step (hclear : ∀ s, k.world.fired s = false) (h : strand.SameCalls strand')
    (step : strand.Step k who s t strand₁ s') :
    ∃ strand₁', Strand.Steps k who strand' s t strand₁' s' ∧ strand₁.SameCalls strand₁' := by
  cases step with
  | look _ =>
    cases h with
    | ready h =>
      rw [hclear]
      exact ⟨_, .refl, .ready h⟩
  | @start p c next _ hp =>
    cases h with
    | @ready _ q h =>
      have hcall : q.unwatched = .call c fun reply => (next reply).unwatched := by
        rw [hclear] at hp
        rw [← h, ← p.unwatched_looked, hp]
        rfl
      obtain ⟨next', hnext, steps⟩ := steps_of_unwatched_call hclear hcall s
      exact ⟨_, steps, .waiting fun reply => (hnext reply).symm⟩
  | finish hfinish =>
    cases h with
    | waiting h => exact ⟨_, .single (.finish hfinish), .ready (h _)⟩
  | giveUp hfired =>
    rw [hclear] at hfired
    cases hfired

/-- What a run comes to, it comes to as well with other looks. -/
theorem Strand.SameCalls.executes (hclear : ∀ s, k.world.fired s = false) (h : strand.SameCalls strand') {a : α}
    {c d : Config α} (steps : Config.Steps e k c s t d s') (hc : c = .ofStrand strand) (hd : d = .ready (.done a)) :
    Config.Steps e k (.ofStrand strand') s t (.ready (.done a)) s' := by
  induction steps generalizing strand strand' with
  | refl =>
    obtain rfl : strand = .ready (.done a) := by
      rw [hd] at hc
      cases strand with
      | ready p => cases p <;> cases hc; rfl
      | waiting => cases hc
    cases h with
    | ready h => exact (steps_of_unwatched_done hclear h.symm _).ofStrand
  | head hstep rest ih =>
    subst hc
    obtain ⟨rfl, rfl, hdrift⟩ | ⟨strand₁, hstrand, rfl⟩ | rfl := hstep.of_ofStrand
    · exact .head (.drift hdrift) (ih h rfl hd)
    · obtain ⟨strand₁', steps, h₁⟩ := h.step hclear hstrand
      exact steps.ofStrand.trans (ih h₁ rfl hd)
    · cases rest.of_broken.symm.trans hd

end Runs

/-- Tasks that differ in looks at most have the same runs. -/
theorem executes_iff_of_unwatched (hclear : ∀ s, k.world.fired s = false) {p q : Task α}
    (h : p.unwatched = q.unwatched) {a : α} :
    (Plan.ofTask p).Executes e k s t a s' ↔ (Plan.ofTask q).Executes e k s t a s' :=
  ⟨fun run => (Strand.SameCalls.ready h).executes hclear run rfl rfl,
    fun run => (Strand.SameCalls.ready h.symm).executes hclear run rfl rfl⟩

/-! ## Fixed answers -/

/-- The token never fires, and each provider has one answer about the address, whenever it is asked. -/
structure Fixed (k : Setting σ) (a : Address) (answer : Nat → Except Error Resolution) : Prop where
  clear : ∀ s, k.world.fired s = false
  finish : ∀ position s, ∃ s', k.world.finish (.geocode position a) s = (some (answer position), s')

/-- With these answers about the address, the task shows a history and comes to an outcome. It calls nobody but
providers, about the address. -/
def Unfolds (a : Address) (answer : Nat → Except Error Resolution) : Task α → List Event → α → Prop
  | .done o', t, o => t = [] ∧ o' = o
  | .look next, t, o => Unfolds a answer (next false) t o
  | .call (.geocode position a') next, t, o => a' = a ∧ ∃ t',
      t = .started none (.geocode position a) :: .answered none (.geocode position a) (answer position) :: t' ∧
      Unfolds a answer (next (answer position)) t' o
  | .call _ _, _, _ => False

theorem Unfolds.looked {a : Address} {answer : Nat → Except Error Resolution} {p : Task α} {t : List Event} {o : α}
    (h : Unfolds a answer p t o) : Unfolds a answer (p.looked false) t o := by
  cases p <;> exact h

/-- `Unfolds` for tasks under way. -/
def Strand.Unfolds (a : Address) (answer : Nat → Except Error Resolution) : Strand α → List Event → α → Prop
  | .ready p, t, o => Engine.Unfolds a answer p t o
  | .waiting c next, t, o => ∃ started, Engine.Unfolds a answer (.call c next) (started :: t) o

section Fixed

variable {a : Address} {answer : Nat → Except Error Resolution} {p q : Task α} {u : List Event} {o : α}

/-- Looks play no part in what a task shows. -/
theorem unfolds_unwatched : Unfolds a answer p.unwatched u o ↔ Unfolds a answer p u o := by
  induction p generalizing u with
  | done o' => rfl
  | look next ih => exact ih false
  | call c next ih =>
    cases c with
    | geocode position a' =>
      exact and_congr_right fun _ => exists_congr fun _ => and_congr_right fun _ => ih (answer position)
    | _ => rfl

theorem Unfolds.congr (hp : Unfolds a answer p u o) (h : p.unwatched = q.unwatched) : Unfolds a answer q u o := by
  rw [← unfolds_unwatched, ← h, unfolds_unwatched]
  exact hp

section Runs

variable {strand strand' : Strand α}

/-- A step shows the next of what there is to be shown. -/
theorem Strand.Step.unfolds (hk : Fixed k a answer) (step : strand.Step k none s t strand' s')
    (h : strand.Unfolds a answer u o) : ∃ u', u = t ++ u' ∧ strand'.Unfolds a answer u' o := by
  cases step with
  | look _ =>
    rw [hk.clear]
    exact ⟨u, rfl, h⟩
  | @start p c next _ hp =>
    have hcall : Engine.Unfolds a answer (.call c next) u o := by
      rw [hk.clear] at hp
      exact hp ▸ Unfolds.looked h
    cases c with
    | geocode position a' =>
      obtain ⟨rfl, u', rfl, hnext⟩ := hcall
      exact ⟨_, rfl, _, rfl, u', rfl, hnext⟩
    | _ => exact hcall.elim
  | @finish c next reply _ _ hfinish =>
    obtain ⟨started, hcall⟩ := h
    cases c with
    | geocode position a' =>
      obtain ⟨rfl, u', hu, hnext⟩ := hcall
      obtain ⟨-, rfl⟩ := List.cons.inj hu
      obtain ⟨s'', hanswer⟩ := hk.finish position s
      obtain rfl : reply = answer position := by simpa [hanswer] using (congrArg Prod.fst hfinish).symm
      exact ⟨u', rfl, hnext⟩
    | _ => exact hcall.elim
  | giveUp hfired =>
    rw [hk.clear] at hfired
    cases hfired

/-- Every run shows that history and comes to that outcome. -/
theorem Strand.Unfolds.executes (hk : Fixed k a answer) (h : strand.Unfolds a answer u o) {o' : α} {c d : Config α}
    (steps : Config.Steps e k c s t d s') (hc : c = .ofStrand strand) (hd : d = .ready (.done o')) :
    t = u ∧ o' = o := by
  induction steps generalizing strand u with
  | refl =>
    obtain rfl : strand = .ready (.done o') := by
      rw [hd] at hc
      cases strand with
      | ready p => cases p <;> cases hc; rfl
      | waiting => cases hc
    exact ⟨h.1.symm, h.2⟩
  | head hstep rest ih =>
    subst hc
    obtain ⟨rfl, rfl, -⟩ | ⟨strand₁, hstrand, rfl⟩ | rfl := hstep.of_ofStrand
    · exact ih h rfl hd
    · obtain ⟨u', rfl, h₁⟩ := hstrand.unfolds hk h
      obtain ⟨rfl, rfl⟩ := ih h₁ rfl hd
      exact ⟨rfl, rfl⟩
    · cases rest.of_broken.symm.trans hd

end Runs

/-- All that matters of how the state changes: nothing. -/
def Fixed.promise (hk : Fixed k a answer) : Promise k where
  holds _ _ := True
  refl _ := trivial
  trans _ _ := trivial
  drift _ := trivial
  fired {s _} _ hfired := by
    rw [hk.clear s] at hfired
    cases hfired

/-- A run of such a task comes to its end. -/
theorem Unfolds.wp (hk : Fixed k a answer) (h : Unfolds a answer p u o) (s : σ) :
    Engine.wp hk.promise (fun _ _ => True) p s := by
  induction p generalizing u s with
  | done o' => exact fun _ _ => trivial
  | look next ih =>
    intro s' _
    rw [hk.clear]
    exact ih false h s'
  | call c next ih =>
    cases c with
    | geocode position a' =>
      obtain ⟨rfl, u', rfl, hnext⟩ := h
      refine fun s' _ => ⟨trivial, fun s₁ _ => ⟨?_, fun hfired => absurd hfired (by simp [hk.clear])⟩⟩
      obtain ⟨s₂, hfinish⟩ := hk.finish position s₁
      exact ⟨_, s₂, hfinish, trivial, ih _ hnext s₂⟩
    | _ => exact h.elim

/-- The plan can be brought to its end from wherever it has come to, and has one history and one outcome. -/
structure Plan.Settled (e : Engine) (k : Setting σ) (p : Plan α) (s : σ) (t : List Event) (o : α) : Prop where
  ends : p.Ensures e k s fun o' _ => o' = o
  history : ∀ {t' o' s'}, p.Executes e k s t' o' s' → t' = t

theorem Unfolds.settled (hk : Fixed k a answer) (h : Unfolds a answer p u o) (s : σ) :
    (Plan.ofTask p).Settled e k s u o := by
  have hready : (Strand.ready p).Unfolds a answer u o := h
  have hruns : ∀ {t' o' s'}, (Plan.ofTask p).Executes e k s t' o' s' → t' = u ∧ o' = o := fun run =>
    hready.executes hk run rfl rfl
  have hends : (Plan.ofTask p).Ensures e k s fun _ _ => True :=
    (Plan.wp.ofTask (h.wp hk s) (Promise.Implies.refl _)).ensures
  exact ⟨⟨hends.1, fun _ _ _ run => (hruns run).2⟩, fun run => (hruns run).1⟩

end Fixed

end Engine

end Geocoding
