import Geocoding.Proofs.Interleaving.Unwatched

/-!
# Cascades in turns

To ask some providers, and those behind them if none of the first has a match, is to ask all of them, as long as
the second turn is told whom the first one asked last. It is told by the resolution of the first turn, whose source
is empty if there was nobody, or somebody without a name: the second turn makes no difference between the two.
-/

namespace Geocoding

/-- The provider that was asked last, as far as an unmatched resolution tells. -/
def Resolution.lastAsked (r : Resolution) : Option String :=
  if r.source = "" then none else some r.source

theorem Resolution.getD_lastAsked (r : Resolution) : r.lastAsked.getD "" = r.source := by
  unfold lastAsked
  split
  next h => exact h.symm
  next => rfl

namespace Engine

variable {σ : Type} {e : Engine} {k : Setting σ} {s s' : σ}

/-- Go on when others have been asked, unless one of them had a match. -/
def askFurther (next : Option String → Task (Except Error Resolution)) :
    Except Error Resolution → Task (Except Error Resolution)
  | .error error => .done (.error error)
  | .ok r => if r.matched then .done (.ok r) else next r.lastAsked

/-- Ask the providers in a range of positions in two turns, without the cache. -/
def cascadeInTurns (e : Engine) (a : Address) (first middle stop : Nat) (prior : Option String) :
    Task (Except Error Resolution) :=
  (e.cascade a first middle prior).bind (askFurther (e.cascade a middle stop))

section AskAll

variable {a : Address} {p : Provider} {position : Nat} {last last' : Option String}
  {providers later : List (Provider × Nat)}

/-- That no provider was asked before is the same as that one without a name was. -/
theorem askAll_congr (h : last.getD "" = last'.getD "") : askAll a providers last = askAll a providers last' := by
  induction providers generalizing last last' with
  | nil => simp only [askAll, h]
  | cons provider rest ih =>
    obtain ⟨p, position⟩ := provider
    have hrest : ∀ error : Error, askAll a rest (if error.isNotConfigured then last else some p.name) =
        askAll a rest (if error.isNotConfigured then last' else some p.name) := by
      intro error
      split
      · exact ih h
      · rfl
    simp only [askAll, ih h, hrest]

/-- What is asked first where the token never fires. -/
theorem unwatched_askAll_cons : (askAll a ((p, position) :: providers) last).unwatched =
    if p.available then
      .call (.geocode position a) fun
        | .ok r => if r.matched then .done (.ok r) else (askAll a providers (some p.name)).unwatched
        | .error error => (askAll a providers (if error.isNotConfigured then last else some p.name)).unwatched
    else (askAll a providers last).unwatched := by
  change (if !p.available then askAll a providers last else _).unwatched = _
  cases havailable : p.available with
  | false => rfl
  | true =>
    refine congrArg (Program.call _) (funext fun reply => ?_)
    cases reply with
    | error error => rfl
    | ok r => exact apply_ite Program.unwatched _ _ _

/-- Where the token never fires, providers are asked from any of them on as if those before it had been asked by
someone else, who passes on which of them was asked last. -/
theorem unwatched_askAll_append : (askAll a (providers ++ later) last).unwatched =
    ((askAll a providers last).bind (askFurther (askAll a later))).unwatched := by
  rw [Program.unwatched_bind]
  induction providers generalizing last with
  | nil =>
    have hlast : (Resolution.unmatched (last.getD "")).lastAsked.getD "" = last.getD "" :=
      Resolution.getD_lastAsked _
    exact congrArg Program.unwatched (askAll_congr hlast.symm)
  | cons provider rest ih =>
    obtain ⟨p, position⟩ := provider
    rw [List.cons_append, unwatched_askAll_cons, unwatched_askAll_cons]
    split
    · refine congrArg (Program.call _) (funext fun reply => ?_)
      cases reply with
      | error error => exact ih
      | ok r =>
        cases hmatched : r.matched with
        | true => simp [hmatched, askFurther, Program.unwatched]
        | false => simpa [hmatched] using ih
    · exact ih

/-- With fixed answers there is one way to ask providers. -/
theorem exists_unfolds_askAll (answer : Nat → Except Error Resolution) (a : Address)
    (providers : List (Provider × Nat)) (last : Option String) :
    ∃ t r, Unfolds a answer (askAll a providers last) t (.ok r) := by
  induction providers generalizing last with
  | nil => exact ⟨[], _, rfl, rfl⟩
  | cons provider rest ih =>
    obtain ⟨p, position⟩ := provider
    have hall : ∀ {t r}, Unfolds a answer (askAll a ((p, position) :: rest) last).unwatched t (.ok r) →
        ∃ t r, Unfolds a answer (askAll a ((p, position) :: rest) last) t (.ok r) :=
      fun h => ⟨_, _, unfolds_unwatched.1 h⟩
    rw [unwatched_askAll_cons] at hall
    split at hall
    · cases hanswer : answer position with
      | error error =>
        obtain ⟨t, r, h⟩ := ih (if error.isNotConfigured then last else some p.name)
        refine @hall _ r ⟨rfl, t, rfl, ?_⟩
        rw [hanswer]
        exact unfolds_unwatched.2 h
      | ok r =>
        cases hmatched : r.matched with
        | true =>
          refine @hall _ r ⟨rfl, [], rfl, ?_⟩
          simp [hanswer, hmatched, Unfolds]
        | false =>
          obtain ⟨t, r', h⟩ := ih (some p.name)
          refine @hall _ r' ⟨rfl, t, rfl, ?_⟩
          simpa [hanswer, hmatched, unfolds_unwatched] using h
    · obtain ⟨t, r, h⟩ := ih last
      exact hall (unfolds_unwatched.2 h)

end AskAll

section Cascade

variable {a : Address} {first middle stop : Nat}

/-- Where the token never fires, a cascade is the same in one turn and in two. -/
theorem unwatched_cascadeInTurns (e : Engine) (a : Address) (hfirst : first ≤ middle) (hmiddle : middle ≤ stop)
    (hstop : stop ≤ e.providers.length) (prior : Option String) :
    (e.cascade a first stop prior).unwatched = (e.cascadeInTurns a first middle stop prior).unwatched := by
  rw [cascadeInTurns, cascade, cascade, ← e.span_append_span hfirst hmiddle hstop]
  exact unwatched_askAll_append

/-- A cascade composes: where the token never fires and the providers have fixed answers about the address, to ask
those from one position within the list up to another comes to the same as to ask them in two turns. There is the same
run for both, with the same calls in the same order, and in no state is there another one. -/
theorem cascade_composes (e : Engine) (k : Setting σ) (a : Address) (answer : Nat → Except Error Resolution)
    (hk : Fixed k a answer) (hfirst : first ≤ middle) (hmiddle : middle ≤ stop) (hstop : stop ≤ e.providers.length)
    (prior : Option String) :
    (∀ s t o s', (Plan.ofTask (e.cascade a first stop prior)).Executes e k s t o s' ↔
      (Plan.ofTask (e.cascadeInTurns a first middle stop prior)).Executes e k s t o s') ∧
    ∃ t r, ∀ s, (Plan.ofTask (e.cascade a first stop prior)).Settled e k s t (.ok r) ∧
      (Plan.ofTask (e.cascadeInTurns a first middle stop prior)).Settled e k s t (.ok r) := by
  have hsame := e.unwatched_cascadeInTurns a hfirst hmiddle hstop prior
  obtain ⟨t, r, h⟩ := exists_unfolds_askAll answer a (e.span first stop) prior
  exact ⟨fun s t o s' => executes_iff_of_unwatched hk.clear hsame,
    t, r, fun s => ⟨Unfolds.settled hk h s, (Unfolds.congr h hsame).settled hk s⟩⟩

end Cascade

namespace Sample

/-- Two providers, of which the first has no name. -/
def nameless : Engine :=
  .ofProviders [{ name := "" }, { name := "census" }] false

/-- The first provider finds nothing, and the second is not configured. -/
def shrug : Nat → Address → Except Error Resolution
  | 0, _ => .ok (.unmatched "")
  | _, _ => .error (.notConfigured "")

end Sample

/-- In the first turn the nameless provider has been asked. The second turn is told of nobody, asks in vain, and
still does not name the one that was asked before the first. -/
theorem cascade_composes_nameless :
    let k := InMemory.setting Sample.shrug false
    Fixed k Sample.home (fun position => Sample.shrug position Sample.home) ∧ 0 ≤ 1 ∧ 1 ≤ 2 ∧
    2 ≤ Sample.nameless.providers.length ∧ ∃ t, ∀ s,
      (Plan.ofTask (Sample.nameless.cascade Sample.home 0 2 (some "tiger"))).Settled Sample.nameless k s t
        (.ok (.unmatched "")) ∧
      (Plan.ofTask (Sample.nameless.cascadeInTurns Sample.home 0 1 2 (some "tiger"))).Settled Sample.nameless k s t
        (.ok (.unmatched "")) := by
  intro k
  have hk : Fixed k Sample.home fun position => Sample.shrug position Sample.home :=
    ⟨InMemory.calm Sample.shrug, fun position s => ⟨s, rfl⟩⟩
  obtain ⟨t, r, hsettled⟩ := (cascade_composes Sample.nameless k Sample.home _ hk (Nat.zero_le 1)
    (Nat.le_succ 1) (Nat.le_refl 2) (some "tiger")).2
  have hrun : ((Plan.ofTask (Sample.nameless.cascade Sample.home 0 2 (some "tiger"))).run Sample.nameless
      k.world {}).1 = some (.ok (.unmatched "")) := by
    decide +kernel
  obtain ⟨u, run⟩ := (Plan.executes_of_run _ (Prod.ext hrun rfl)).1
  obtain rfl : .unmatched "" = r := Except.ok.inj ((hsettled {}).1.ends.2 u _ _ run)
  exact ⟨hk, Nat.zero_le 1, Nat.le_succ 1, Nat.le_refl 2, t, hsettled⟩

end Engine

end Geocoding
