import Geocoding.Proofs.Coupled
import Geocoding.Proofs.Inquiries
import Geocoding.Proofs.Steady.Memory

/-!
# A broken cache

A call to the cache that fails counts as a miss, or is of no account. So if all of them fail, a run does what it
does without a cache, but for the calls that fail: where one of the two runs waits for the cache, the other one
waits for it to go on.
-/

namespace Geocoding.Engine

variable {α β σ : Type}

/-- The call is one to the cache. -/
def Call.onCache : Call → Bool
  | .check _ | .store _ _ => true
  | _ => false

/-- The event is about a call to the cache. -/
def Event.onCache (event : Event) : Bool :=
  event.call?.any Call.onCache

/-- What a run shows of its calls to providers, and of its jobs. -/
def pastCache (t : List Event) : List Event :=
  t.filter fun event => !event.onCache

@[simp] theorem pastCache_append (t t' : List Event) : pastCache (t ++ t') = pastCache t ++ pastCache t' :=
  List.filter_append ..

theorem pastCache_eq_nil {t : List Event} (h : ∀ event ∈ t, event.onCache = true) : pastCache t = [] :=
  List.filter_eq_nil_iff.2 fun event hevent => by simp [h event hevent]

theorem pastCache_eq_self {t : List Event} (h : ∀ event ∈ t, event.onCache = false) : pastCache t = t :=
  List.filter_eq_self.2 fun event hevent => by simp [h event hevent]

/-- The engine without a cache. -/
def uncached (e : Engine) : Engine :=
  { e with caching := false }

/-- The token never fires, and all calls to the cache fail. States that are alike differ in nothing else than in
what such calls have done to them, which has no effect on other calls. -/
structure Setting.CacheFails (k : Setting σ) (alike : σ → σ → Prop) : Prop where
  clear : ∀ s, k.world.fired s = false
  equivalence : Equivalence alike
  start : ∀ {c s s'}, c.onCache = false → alike s s' → alike (k.world.start c s).2 (k.world.start c s').2
  finish : ∀ {c s s' reply s₁}, c.onCache = false → alike s s' → k.world.finish c s = (reply, s₁) →
    ∃ s₁', k.world.finish c s' = (reply, s₁') ∧ alike s₁ s₁'
  drift : ∀ {s s' s₁}, alike s s' → k.drift s s₁ → ∃ s₁', Drifts k s' s₁' ∧ alike s₁ s₁'
  startCache : ∀ {c s}, c.onCache = true → alike s (k.world.start c s).2
  failCache : ∀ c s, c.onCache = true →
    ∃ error s₁, k.world.finish c s = (some (.error error), s₁) ∧ error ≠ .cancelled ∧ alike s s₁

/-! ## Tasks -/

/-- Tasks that do the same as long as the token has not fired and calls to the cache fail. -/
inductive Alike : Task α → Task α → Prop
  | done (a : α) : Alike (.done a) (.done a)
  | call {c : Call} {next next' : collaborators.Reply c → Task α} (hc : c.onCache = false)
      (h : ∀ reply, Alike (next reply) (next' reply)) : Alike (.call c next) (.call c next')
  | lookLeft {next : Bool → Task α} {p' : Task α} (h : Alike (next false) p') : Alike (.look next) p'
  | lookRight {p : Task α} {next' : Bool → Task α} (h : Alike p (next' false)) : Alike p (.look next')
  | failLeft {c : Call} {next : collaborators.Reply c → Task α} {p' : Task α} (hc : c.onCache = true)
      (h : ∀ error, error ≠ .cancelled → Alike (next (.error error)) p') : Alike (.call c next) p'
  | failRight {c : Call} {p : Task α} {next' : collaborators.Reply c → Task α} (hc : c.onCache = true)
      (h : ∀ error, error ≠ .cancelled → Alike p (next' (.error error))) : Alike p (.call c next')

namespace Alike

variable {p p' : Task α}

theorem symm (h : Alike p p') : Alike p' p := by
  induction h with
  | done a => exact .done a
  | call hc _ ih => exact .call hc ih
  | lookLeft _ ih => exact .lookRight ih
  | lookRight _ ih => exact .lookLeft ih
  | failLeft hc _ ih => exact .failRight hc ih
  | failRight hc _ ih => exact .failLeft hc ih

theorem bind {f f' : α → Task β} (h : Alike p p') (hf : ∀ a, Alike (f a) (f' a)) :
    Alike (p.bind f) (p'.bind f') := by
  induction h with
  | done a => exact hf a
  | call hc _ ih => exact .call hc ih
  | lookLeft _ ih => exact .lookLeft ih
  | lookRight _ ih => exact .lookRight ih
  | failLeft hc _ ih => exact .failLeft hc ih
  | failRight hc _ ih => exact .failRight hc ih

/-- A task that does not call the cache is like itself. -/
theorem of_only (h : p.Only fun c : Call => c.onCache = false) : Alike p p := by
  induction p with
  | done a => exact .done a
  | look next ih => exact .lookLeft (.lookRight (ih false (h false)))
  | call c next ih => exact .call h.1 fun reply => ih reply (h.2 reply)

theorem of_look {next : Bool → Task α} (h : Alike (.look next) p') : Alike (next false) p' := by
  generalize hp : (.look next : Task α) = p at h
  induction h with
  | lookLeft h _ =>
    cases hp
    exact h
  | lookRight _ ih => exact .lookRight (ih hp)
  | failRight hc _ ih => exact .failRight hc fun error herror => ih error herror hp
  | _ => cases hp

theorem looked (h : Alike p p') : Alike (p.looked false) p' := by
  cases p with
  | look next => exact h.of_look
  | _ => exact h

theorem of_cache {c : Call} {next : collaborators.Reply c → Task α} (hc : c.onCache = true)
    (h : Alike (.call c next) p') {error : Error} (herror : error ≠ .cancelled) :
    Alike (next (.error error)) p' := by
  generalize hp : (.call c next : Task α) = p at h
  induction h with
  | call hc' _ _ =>
    cases hp
    rw [hc] at hc'
    cases hc'
  | failLeft _ h _ =>
    cases hp
    exact h error herror
  | lookRight _ ih => exact .lookRight (ih hp)
  | failRight hc' _ ih => exact .failRight hc' fun error herror => ih error herror hp
  | _ => cases hp

end Alike

section Steps

variable {k : Setting σ} {alike : σ → σ → Prop} {who : Option Job} {s s' s₁ : σ} {t : List Event}

/-- A look at the token does not hold up what comes behind it. -/
theorem Strand.Steps.of_look (hclear : ∀ s, k.world.fired s = false) {next : Bool → Task α} {strand : Strand α}
    (hstrand : ∀ p, strand = .ready p → p.isCall = false)
    (steps : Strand.Steps k who (.ready (next false)) s t strand s₁) :
    Strand.Steps k who (.ready (.look next)) s t strand s₁ := by
  rw [← hclear s] at steps
  cases hcall : (next (k.world.fired s)).isCall with
  | false => exact .head (.look hcall) steps
  | true =>
    -- The look starts the call at once, so the first of the steps is that of the look.
    cases steps with
    | refl => exact absurd hcall (by simp [hstrand _ rfl])
    | head step rest =>
      generalize hnext : next (k.world.fired s) = p at step hcall
      cases p with
      | call c next' =>
        cases step with
        | start hp =>
          cases hp
          exact .head (.start hnext) rest
      | _ => cases hcall

/-- A call to the cache fails, and nothing is shown of it. -/
theorem fail_steps (hk : k.CacheFails alike) {c : Call} (hc : c.onCache = true)
    (next : collaborators.Reply c → Task α) (who : Option Job) (s : σ) :
    ∃ error t s₁, Strand.Steps k who (.ready (.call c next)) s t (.ready (next (.error error))) s₁ ∧
      error ≠ .cancelled ∧ alike s s₁ ∧ pastCache t = [] := by
  obtain ⟨error, s₁, hfinish, herror, hs₁⟩ := hk.failCache c (k.world.start c s).2 hc
  refine ⟨error, _, s₁, .head (.start rfl) (.single (.finish hfinish)), herror,
    hk.equivalence.trans (hk.startCache hc) hs₁, pastCache_eq_nil ?_⟩
  simp [Event.onCache, Event.call?, hc]

/-- Where the one task is done, the other one comes to the same outcome. -/
theorem Alike.catchUp_done (hk : k.CacheFails alike) {a : α} {p' : Task α} (h : Alike (.done a) p') (who : Option Job)
    (s' : σ) : ∃ t' s₁', Strand.Steps k who (.ready p') s' t' (.ready (.done a)) s₁' ∧ alike s' s₁' ∧
      pastCache t' = [] := by
  generalize hp : (.done a : Task α) = p at h
  induction h generalizing s' with
  | done a' =>
    cases hp
    exact ⟨[], s', .refl, hk.equivalence.refl s', rfl⟩
  | lookRight _ ih =>
    obtain ⟨t', s₁', steps, hs, ht⟩ := ih s' hp
    refine ⟨t', s₁', steps.of_look hk.clear ?_, hs, ht⟩
    rintro _ ⟨⟩
    rw [← hp]
    rfl
  | @failRight c p next' hc _ ih =>
    obtain ⟨error, t₁, s₁, steps₁, herror, hs₁, ht₁⟩ := fail_steps hk hc next' who s'
    obtain ⟨t', s₁', steps, hs, ht⟩ := ih error herror s₁ hp
    exact ⟨_, s₁', steps₁.trans steps, hk.equivalence.trans hs₁ hs, by simp [ht₁, ht]⟩
  | _ => cases hp

/-- Where the one task calls a provider, the other one comes to the same call. -/
theorem Alike.catchUp_call (hk : k.CacheFails alike) {c : Call} (hc : c.onCache = false)
    {next : collaborators.Reply c → Task α} {p' : Task α} (h : Alike (.call c next) p') (who : Option Job) (s' : σ) :
    ∃ t' next' s₁', Strand.Steps k who (.ready p') s' t' (.waiting c next') (k.world.start c s₁').2 ∧ alike s' s₁' ∧
      pastCache t' = pastCache [.started who c] ∧ ∀ reply, Alike (next reply) (next' reply) := by
  generalize hp : (.call c next : Task α) = p at h
  induction h generalizing s' with
  | @call c' _ next' _ h _ =>
    cases hp
    exact ⟨_, next', s', .single (.start rfl), hk.equivalence.refl s', rfl, h⟩
  | lookRight _ ih =>
    obtain ⟨t', next', s₁', steps, hs, ht, h⟩ := ih s' hp
    refine ⟨t', next', s₁', steps.of_look hk.clear ?_, hs, ht, h⟩
    rintro _ ⟨⟩
  | @failRight c' p next' hc' _ ih =>
    obtain ⟨error, t₁, s₁, steps₁, herror, hs₁, ht₁⟩ := fail_steps hk hc' next' who s'
    obtain ⟨t', next', s₁', steps, hs, ht, h⟩ := ih error herror s₁ hp
    exact ⟨_, next', s₁', steps₁.trans steps, hk.equivalence.trans hs₁ hs, by simp [ht₁, ht], h⟩
  | failLeft hc' _ _ =>
    cases hp
    rw [hc] at hc'
    cases hc'
  | _ => cases hp

/-- Tasks under way alike. The first one may wait for a call to the cache, which is going to fail. -/
inductive Strand.Alike : Strand α → Strand α → Prop
  | ready {p p' : Task α} (h : Engine.Alike p p') : Alike (.ready p) (.ready p')
  | waiting {c : Call} {next next' : collaborators.Reply c → Task α} (hc : c.onCache = false)
      (h : ∀ reply, Engine.Alike (next reply) (next' reply)) : Alike (.waiting c next) (.waiting c next')
  | failing {c : Call} {next : collaborators.Reply c → Task α} {p' : Task α} (hc : c.onCache = true)
      (h : ∀ error, error ≠ .cancelled → Engine.Alike (next (.error error)) p') : Alike (.waiting c next) (.ready p')

/-- A step of a task is followed by a task alike. -/
theorem Strand.Alike.step (hk : k.CacheFails alike) {strand strand' strand₁ : Strand α} (h : strand.Alike strand')
    (hs : alike s s') (step : strand.Step k who s t strand₁ s₁) :
    ∃ t' strand₁' s₁', Strand.Steps k who strand' s' t' strand₁' s₁' ∧ strand₁.Alike strand₁' ∧ alike s₁ s₁' ∧
      pastCache t' = pastCache t := by
  cases step with
  | @look next _ _ =>
    cases h with
    | ready h =>
      rw [hk.clear]
      exact ⟨[], _, s', .refl, .ready h.of_look, hs, rfl⟩
  | @start p c next _ hp =>
    cases h with
    | @ready _ p' h =>
      rw [hk.clear] at hp
      have hcall : Engine.Alike (.call c next) p' := hp ▸ h.looked
      cases hc : c.onCache with
      | false =>
        obtain ⟨t', next', s₁', steps, hs₁, ht, hnext⟩ := hcall.catchUp_call hk hc who s'
        exact ⟨t', _, _, steps, .waiting hc hnext, hk.start hc (hk.equivalence.trans hs hs₁), ht⟩
      | true =>
        -- A call to the cache is not followed at all: it is going to fail, and the other task is there already.
        have hfail : (Strand.waiting c next).Alike (.ready p') :=
          .failing hc fun error herror => hcall.of_cache hc herror
        have hs₁ := hk.equivalence.trans (hk.equivalence.symm (hk.startCache hc)) hs
        exact ⟨[], _, s', .refl, hfail, hs₁, (pastCache_eq_nil (by simp [Event.onCache, Event.call?, hc])).symm⟩
  | @finish c next reply _ _ hfinish =>
    cases h with
    | waiting hc h =>
      obtain ⟨s₁', hfinish', hs₁⟩ := hk.finish hc hs hfinish
      exact ⟨_, _, s₁', .single (.finish hfinish'), .ready (h reply), hs₁, rfl⟩
    | failing hc h =>
      -- The reply that has come can be none but the failure.
      obtain ⟨error, s₂, hfail, herror, hs₂⟩ := hk.failCache c s hc
      rw [hfinish, Prod.mk.injEq, Option.some.injEq] at hfail
      obtain ⟨rfl, rfl⟩ := hfail
      have hs₁ := hk.equivalence.trans (hk.equivalence.symm hs₂) hs
      exact ⟨[], _, s', .refl, .ready (h error herror), hs₁,
        (pastCache_eq_nil (by simp [Event.onCache, Event.call?, hc])).symm⟩
  | giveUp hfired =>
    rw [hk.clear] at hfired
    cases hfired

theorem Strand.Alike.leave (hk : k.CacheFails alike) {a : α} {strand' : Strand α}
    (h : (Strand.ready (.done a)).Alike strand') (who : Option Job) (hs : alike s s') :
    ∃ t' s₁', Strand.Steps k who strand' s' t' (.ready (.done a)) s₁' ∧ alike s s₁' ∧ pastCache t' = [] := by
  cases h with
  | ready h =>
    obtain ⟨t', s₁', steps, hs₁, ht⟩ := h.catchUp_done hk who s'
    exact ⟨t', s₁', steps, hk.equivalence.trans hs hs₁, ht⟩

theorem Strand.Alike.lose (hk : k.CacheFails alike) {c : Call} {next : collaborators.Reply c → Task α}
    {strand' : Strand α} (h : (Strand.waiting c next).Alike strand') (hs : alike s s')
    (hnone : k.world.finish c s = (none, s₁)) :
    ∃ next' s₁', strand' = .waiting c next' ∧ k.world.finish c s' = (none, s₁') ∧ alike s₁ s₁' := by
  cases h with
  | waiting hc h =>
    obtain ⟨s₁', hnone', hs₁⟩ := hk.finish hc hs hnone
    exact ⟨_, s₁', rfl, hnone', hs₁⟩
  | failing hc h =>
    obtain ⟨error, s₂, hfail, -⟩ := hk.failCache c s hc
    rw [hnone] at hfail
    cases hfail

end Steps

/-! ## The tasks of engines -/

/-- Engines that differ in nothing but whether they have a cache. -/
structure SameButCache (e e' : Engine) : Prop where
  providers : e'.providers = e.providers
  concurrency : e'.concurrency = e.concurrency
  chunkSize : e'.chunkSize = e.chunkSize

theorem sameButCache_uncached (e : Engine) : e.SameButCache e.uncached := ⟨rfl, rfl, rfl⟩

theorem SameButCache.symm {e e' : Engine} (h : e.SameButCache e') : e'.SameButCache e :=
  ⟨h.providers.symm, h.concurrency.symm, h.chunkSize.symm⟩

theorem isCancelled_of_ne {error : Error} (h : error ≠ .cancelled) : error.isCancelled = false := by
  cases error <;> first | rfl | exact absurd rfl h

section Tasks

variable {e e' : Engine}

/-- A lookup misses. -/
theorem alike_lookup (e : Engine) (key : String) {f : Except Error (Option Resolution) → Task α} {p' : Task α}
    (h : Alike (f (.ok none)) p') : Alike ((e.lookup key).bind f) p' := by
  unfold lookup
  split
  · refine .lookLeft (.failLeft rfl fun error herror => ?_)
    have hmiss : (if error.isCancelled = true then Except.error Error.cancelled else .ok none) =
        (.ok none : Except Error (Option Resolution)) := by simp [isCancelled_of_ne herror]
    simpa [Program.bind, hmiss] using h
  · exact h

/-- What cannot be kept is of no account. -/
theorem alike_keep (e e' : Engine) (key : String) (r : Resolution) (a : α) :
    Alike ((e.keep key r).bind fun _ => .done a) ((e'.keep key r).bind fun _ => .done a) := by
  have hkeep (e : Engine) {p : Task α} (h : Alike (.done a) p) : Alike ((e.keep key r).bind fun _ => .done a) p := by
    unfold keep
    split
    · exact .lookLeft (.failLeft rfl fun _ _ => h)
    · exact h
  exact hkeep e (hkeep e' (.done a)).symm

theorem only_cascade_onCache (e : Engine) (a : Address) (first stop : Nat) (prior : Option String) :
    (e.cascade a first stop prior).Only fun c : Call => c.onCache = false := by
  refine (only_askAll a _ prior).mono ?_
  rintro _ ⟨q, -, rfl⟩
  rfl

theorem alike_cascade (same : e.SameButCache e') (a : Address) (first stop : Nat) (prior : Option String) :
    Alike (e.cascade a first stop prior) (e'.cascade a first stop prior) := by
  have hcascade : e'.cascade a first stop prior = e.cascade a first stop prior := by
    simp only [cascade, span, same.providers]
  rw [hcascade]
  exact .of_only (e.only_cascade_onCache a first stop prior)

theorem alike_resolve (same : e.SameButCache e') (a : Address) (first : Nat) (prior : Option String) :
    Alike (e.resolve a first prior) (e'.resolve a first prior) := by
  refine .lookLeft (.lookRight (alike_lookup e a.key (alike_lookup e' a.key ?_).symm))
  rw [same.providers]
  refine (alike_cascade same a first _ prior).symm.bind fun outcome => ?_
  match outcome with
  | .error error => exact .done _
  | .ok r => exact alike_keep e' e a.key r _

theorem alike_task (same : e.SameButCache e') (j : Job) : Alike (e.task j) (e'.task j) := by
  obtain ⟨row, stage⟩ := j
  cases stage with
  | lookup =>
    have h : Alike ((e.lookup row.key).bind .done) ((e'.lookup row.key).bind .done) :=
      alike_lookup e row.key (alike_lookup e' row.key (.done _)).symm
    simpa [task] using h
  | keep r => exact alike_keep e e' row.key r _
  | leading stop => exact (alike_cascade same row.address 0 stop none).bind fun _ => .done _
  | resolve first prior => exact (alike_resolve same row.address first prior).bind fun _ => .done _

end Tasks

/-! ## Runs -/

section Runs

variable {k : Setting σ} {alike : σ → σ → Prop} {e e' : Engine}

/-- Runs with and without a cache follow each other. -/
def SameButCache.coupling (same : e.SameButCache e') (hk : k.CacheFails alike) : Coupling e e' k where
  near := alike
  row := id
  shown := Option.guard fun event => !event.onCache
  keeps _ := Strand.Alike
  providers := same.providers
  concurrency := same.concurrency
  chunkSize := same.chunkSize
  index _ := rfl
  submitted _ := rfl
  fired _ := (hk.clear _).trans (hk.clear _).symm
  drift := hk.drift
  submit position rows := {
    start := hk.start rfl
    finish := hk.finish rfl
    abandon := fun _ hfired => absurd hfired (by simp [hk.clear]) }
  begun _ := rfl
  begin j := .ready (alike_task same j)
  step h hs step := by
    obtain ⟨t', strand₁', s₁', steps, h₁, hs₁, ht⟩ := h.step hk hs step
    refine ⟨t', strand₁', s₁', steps, h₁, hs₁, ?_⟩
    simpa [pastCache] using ht
  leave h hs := by
    obtain ⟨t', s₁', steps, hs₁, ht⟩ := h.leave hk _ hs
    refine ⟨t', s₁', steps, hs₁, ?_⟩
    simpa [pastCache] using ht
  lose h hs hnone := by
    obtain ⟨next', s₁', hstrand, hnone', hs₁⟩ := h.lose hk hs hnone
    exact ⟨_, next', s₁', hstrand, hnone', hs₁, rfl⟩

/-- A task that comes to its end is followed by a task alike to the same outcome. -/
theorem Strand.Alike.executes (hk : k.CacheFails alike) {strand strand' : Strand α} (h : strand.Alike strand')
    {s s' s₁ : σ} (hs : alike s s') {t : List Event} {a : α} {c d : Config α} (steps : Config.Steps e k c s t d s₁)
    (hc : c = .ofStrand strand) (hd : d = .ready (.done a)) :
    ∃ t' s₁', Config.Steps e' k (.ofStrand strand') s' t' (.ready (.done a)) s₁' ∧ alike s₁ s₁' ∧
      pastCache t' = pastCache t := by
  induction steps generalizing strand strand' s' with
  | refl =>
    obtain rfl : strand = .ready (.done a) := by
      rw [hd] at hc
      cases strand with
      | ready p => cases p <;> cases hc; rfl
      | waiting => cases hc
    obtain ⟨t', s₁', steps, hs₁, ht⟩ := h.leave hk none hs
    exact ⟨t', s₁', steps.ofStrand, hs₁, ht⟩
  | head hstep rest ih =>
    subst hc
    obtain ⟨rfl, rfl, hdrift⟩ | ⟨strand₁, hstrand, rfl⟩ | rfl := hstep.of_ofStrand
    · obtain ⟨s₁', hdrifts, hs₁⟩ := hk.drift hs hdrift
      obtain ⟨t', s₂', steps, hs₂, ht⟩ := ih h hs₁ rfl hd
      exact ⟨t', s₂', .trans (.of_drifts hdrifts) steps, hs₂, ht⟩
    · obtain ⟨t', strand₁', s₁', steps, h₁, hs₁, ht⟩ := h.step hk hs hstrand
      obtain ⟨t'', s₂', steps', hs₂, ht'⟩ := ih h₁ hs₁ rfl hd
      exact ⟨t' ++ t'', s₂', steps.ofStrand.trans steps', hs₂, by simp [ht, ht']⟩
    · cases rest.of_broken.symm.trans hd

/-- Whatever a run of the first plan comes to, asking providers and answered by them in some order, a run of the
second one comes to in the same order. -/
def Plan.Reproduced (e e' : Engine) (k : Setting σ) (alike : σ → σ → Prop) (p p' : Plan α) (s s' : σ) : Prop :=
  ∀ t a s₁, p.Executes e k s t a s₁ →
    ∃ t' s₁', p'.Executes e' k s' t' a s₁' ∧ alike s₁ s₁' ∧ pastCache t' = pastCache t

/-- The runs of two plans cannot be told apart by their outcomes and by the providers that they ask. -/
def Plan.Indistinguishable (e e' : Engine) (k : Setting σ) (alike : σ → σ → Prop) (p p' : Plan α) (s s' : σ) : Prop :=
  p.Reproduced e e' k alike p' s s' ∧ p'.Reproduced e' e k alike p s' s

theorem reproduced_of_plans {same : e.SameButCache e'} {hk : k.CacheFails alike} {p p' : Plan α}
    (h : (same.coupling hk).Plans id p p') {s s' : σ} (hs : alike s s') : p.Reproduced e e' k alike p' s s' := by
  intro t a s₁ run
  have hready : (same.coupling hk).Configs id (.ready p) (.ready p') := .ready h
  obtain ⟨t', c', s₁', steps, hc, hs₁, ht⟩ := hready.steps hs run
  cases hc with
  | ready hdone =>
    cases hdone
    exact ⟨t', s₁', steps, hs₁, by simpa [SameButCache.coupling, pastCache] using ht⟩

theorem reproduced_geocode (same : e.SameButCache e') (hk : k.CacheFails alike) (a : Address) {s s' : σ}
    (hs : alike s s') :
    (Plan.ofTask (e.geocode a)).Reproduced e e' k alike (.ofTask (e'.geocode a)) s s' := by
  intro t o s₁ run
  have h : (Strand.ready (e.geocode a)).Alike (.ready (e'.geocode a)) := .ready (alike_resolve same a 0 none)
  exact h.executes hk hs run rfl rfl

theorem reproduced_batch (same : e.SameButCache e') (hk : k.CacheFails alike) (addresses : List Address) {s s' : σ}
    (hs : alike s s') : (e.batch addresses).Reproduced e e' k alike (e'.batch addresses) s s' :=
  reproduced_of_plans ((same.coupling hk).batch (List.map_id _).symm) hs

theorem reproduced_bulk (same : e.SameButCache e') (hk : k.CacheFails alike) (addresses : List Address) {s s' : σ}
    (hs : alike s s') : (e.bulk addresses).Reproduced e e' k alike (e'.bulk addresses) s s' :=
  reproduced_of_plans ((same.coupling hk).bulk (List.map_id _).symm) hs

end Runs

/-! ## Failures now and then -/

section Geocode

variable {e : Engine} {a : Address} {who : Option Job} {t : List Event}

theorem settles_of_recalls {event : Event} (row : Row) (h : event.recalls = true) : event.settles row = true := by
  unfold Event.recalls at h
  split at h
  · rfl
  · cases h

/-- Only a lookup recalls. -/
theorem Shows.not_recalls {p : Task α} {o : Option α} (h : Shows who p t o)
    (hp : p.Only fun c : Call => ∀ key, c ≠ .check key) : ∀ event ∈ t, event.recalls = false := by
  intro event hevent
  obtain ⟨c, hc, hcheck⟩ := h.only hp event hevent
  unfold Event.recalls
  split
  next who key hit => exact absurd (Option.some.inj hc).symm (hcheck key)
  next => rfl

theorem Shows.onCache {p : Task α} {o : Option α} {b : Bool} (h : Shows who p t o)
    (hp : p.Only fun c : Call => c.onCache = b) : ∀ event ∈ t, event.onCache = b := by
  intro event hevent
  obtain ⟨c, hc, hb⟩ := h.only hp event hevent
  simpa [Event.onCache, hc] using hb

/-- What a run shows has led to an outcome of an address. -/
inductive LeadsTo (e : Engine) (a : Address) (t : List Event) (r : Resolution) : Prop where
  /-- A lookup had the outcome, and no provider was asked. -/
  | recalled (hit : .answered none (.check a.key) (.ok (some r)) ∈ t) (silent : pastCache t = [])
  /-- No lookup had a hit. The outcome is that of the cascade, answered as the run was. -/
  | asked (misses : ∀ event ∈ t, event.recalls = false)
      (cascade : Shows none (e.cascade a 0 e.providers.length none) (pastCache t) (some (.ok r)))

/-- Unless a lookup is reported as cancelled, there is an outcome. -/
theorem shows_geocode {o : Except Error Resolution} (h : Shows none (e.geocode a) t (some o))
    (hchecks : ∀ who key, .answered who (.check key) (.error .cancelled) ∉ t) :
    ∃ r, o = .ok r ∧ e.LeadsTo a t r := by
  obtain ⟨t₁, found, t₂, rfl, hlookup, hrest⟩ | ⟨-, ⟨⟩⟩ := Shows.bind (p := e.lookup a.key) h
  have honly : (e.lookup a.key).Only fun c : Call => c.onCache = true :=
    (e.only_lookup a.key).mono (by rintro _ rfl; rfl)
  have hcancels : ∀ event ∈ t₁, event.cancels = false := by
    intro event hevent
    have hcache := hlookup.onCache honly event hevent
    unfold Event.cancels
    split
    next who key => exact absurd (List.mem_append_left _ hevent) (hchecks who key)
    next => cases hcache
    next => rfl
  obtain ⟨⟨⟩, hidle⟩ | ⟨hit, ⟨⟩, rfl⟩ | ⟨⟨⟩, -⟩ := shows_lookup ⟨0, a⟩ hlookup hcancels
  case inl =>
    obtain ⟨t₃, outcome, t₄, rfl, hcascade, hrest⟩ | ⟨-, ⟨⟩⟩ :=
      Shows.bind (p := e.cascade a 0 e.providers.length none) hrest
    obtain ⟨r, rfl⟩ : ∃ r, outcome = .ok r := by
      have hconsulted := (Front.start e ⟨0, a⟩).askAll (e.ranked_span (Nat.le_refl _)) (Nat.zero_le _) hcascade
      cases hconsulted <;> exact ⟨_, rfl⟩
    obtain ⟨_ | kept, hkeep, ho⟩ := Shows.of_map (p := e.keep a.key r) hrest
    · cases ho
    · cases ho
      have hask := hcascade.onCache (only_cascade_onCache e a ..)
      have hstore := hkeep.onCache ((e.only_keep a.key r).mono (by rintro _ rfl; rfl))
      refine ⟨r, rfl, .asked ?_ ?_⟩
      · refine List.forall_mem_append.2 ⟨fun event hevent => ?_, List.forall_mem_append.2 ⟨?_, ?_⟩⟩
        · rw [Bool.eq_false_iff]
          intro hrecalls
          have hsettles := settles_of_recalls ⟨0, a⟩ hrecalls
          rw [(hidle event hevent).unsettled] at hsettles
          cases hsettles
        · exact hcascade.not_recalls ((only_askAll a _ none).mono (by rintro _ ⟨q, -, rfl⟩ key ⟨⟩))
        · exact hkeep.not_recalls ((e.only_keep a.key r).mono (by rintro _ rfl key ⟨⟩))
      · rw [pastCache_append, pastCache_append, pastCache_eq_nil (hlookup.onCache honly), pastCache_eq_nil hstore,
          pastCache_eq_self hask]
        simpa using hcascade
  case inr.inl =>
    obtain ⟨rfl, ho⟩ := hrest
    cases ho
    exact ⟨hit, rfl, .recalled (by simp) (by rw [List.append_nil]; exact pastCache_eq_nil (hlookup.onCache honly))⟩

/-- No lookup is reported as cancelled. -/
theorem Plan.Executes.not_cancelled {k : Setting σ}
    (hchecks : ∀ key s, (k.world.finish (.check key) s).1 ≠ some (.error .cancelled)) {p : Plan α} {s s' : σ} {a : α}
    (run : p.Executes e k s t a s') : ∀ who key, .answered who (.check key) (.error .cancelled) ∉ t := by
  have hreplies := Config.Steps.of_replies
    (P := fun event => ∀ who key, event ≠ .answered who (.check key) (.error .cancelled)) ?_ ?_ run
  · exact fun who key hevent => hreplies _ hevent who key rfl
  · rintro who c reply s s' hfinish who' key ⟨⟩
    exact hchecks key s (congrArg Prod.fst hfinish)
  · exact fun event hevent who key => hevent who (.check key) (.error .cancelled)

end Geocode

/-! ## Caches that always fail -/

/-- The collaborators with a cache that fails at every call. -/
def Setting.breakCache (k : Setting σ) (error : Error) : Setting σ where
  world := { k.world with
    start := fun c s => if c.onCache then (0, s) else k.world.start c s
    finish := fun c s => if c.onCache then (some (.error error), s) else k.world.finish c s }
  drift := k.drift

theorem Replying.breakCache {k : Setting σ} (hk : Replying k) (error : Error) : Replying (k.breakCache error) where
  clear := hk.clear
  reply c s := by
    cases hc : c.onCache with
    | true => exact ⟨.error error, s, by simp [Setting.breakCache, hc]⟩
    | false =>
      obtain ⟨reply, s', hfinish⟩ := hk.reply c s
      exact ⟨reply, s', by simp [Setting.breakCache, hc, hfinish]⟩

/-- A cache that fails at every call leaves no trace in the state. -/
theorem cacheFails_breakCache {k : Setting σ} (hclear : ∀ s, k.world.fired s = false) {error : Error}
    (herror : error ≠ .cancelled) : (k.breakCache error).CacheFails Eq where
  clear := hclear
  equivalence := eq_equivalence
  start := by
    rintro c s _ - rfl
    rfl
  finish := by
    rintro c s _ reply s₁ - rfl hfinish
    exact ⟨s₁, hfinish, rfl⟩
  drift := by
    rintro s _ s₁ rfl hdrift
    exact ⟨s₁, .single hdrift, rfl⟩
  startCache hc := by simp [Setting.breakCache, hc]
  failCache c s hc := ⟨error, s, by simp [Setting.breakCache, hc], herror, rfl⟩

/-- Failures of the cache do not show. Where some of its calls fail, an address comes to what a lookup had, or else to
what the cascade comes to; and where all of them fail, all runs are as they are without a cache. -/
theorem cache_failures_do_not_show :
    (∀ {σ : Type} (e : Engine) (k : Setting σ), Replying k →
      (∀ key s, (k.world.finish (.check key) s).1 ≠ some (.error .cancelled)) → ∀ (a : Address) (s : σ),
        (Plan.ofTask (e.geocode a)).Ensures e k s (fun o _ => ∃ r, o = .ok r) ∧
        ∀ t o s', (Plan.ofTask (e.geocode a)).Executes e k s t o s' → ∃ r, o = .ok r ∧ e.LeadsTo a t r) ∧
    ∀ {σ : Type} (e : Engine) (k : Setting σ) (alike : σ → σ → Prop), k.CacheFails alike → ∀ s s', alike s s' →
      (∀ a, Plan.Indistinguishable e e.uncached k alike (.ofTask (e.geocode a)) (.ofTask (e.uncached.geocode a)) s s') ∧
      ∀ addresses,
        Plan.Indistinguishable e e.uncached k alike (e.batch addresses) (e.uncached.batch addresses) s s' ∧
        Plan.Indistinguishable e e.uncached k alike (e.bulk addresses) (e.uncached.bulk addresses) s s' := by
  refine ⟨fun e k hk hchecks a s => ?_, fun e k alike hk s s' hs => ?_⟩
  · have hleads : ∀ t o s', (Plan.ofTask (e.geocode a)).Executes e k s t o s' → ∃ r, o = .ok r ∧ e.LeadsTo a t r :=
      fun _ _ _ run => shows_geocode (run.shows hk.clear).ofTask (run.not_cancelled hchecks)
    refine ⟨⟨(hk.ensures _ s).1, fun t o s' run => ?_⟩, hleads⟩
    obtain ⟨r, ho, -⟩ := hleads t o s' run
    exact ⟨r, ho⟩
  · have same := e.sameButCache_uncached
    have hs' := hk.equivalence.symm hs
    exact ⟨fun a => ⟨reproduced_geocode same hk a hs, reproduced_geocode same.symm hk a hs'⟩, fun addresses =>
      ⟨⟨reproduced_batch same hk addresses hs, reproduced_batch same.symm hk addresses hs'⟩,
        reproduced_bulk same hk addresses hs, reproduced_bulk same.symm hk addresses hs'⟩⟩

/-- The collaborators of the sample, with a cache that cannot be written or read. -/
def Sample.diskFull : Setting InMemory :=
  (InMemory.setting answer false).breakCache (.cache "disk full")

/-- Without a cache both addresses of the sample are found, because they are with one that always fails. -/
theorem cache_failures_do_not_show_two :
    (Sample.diskFull.CacheFails Eq ∧ ∃ t s', (Sample.engine.uncached.bulk [Sample.home, Sample.office]).Executes
      Sample.engine.uncached Sample.diskFull {} t [Sample.find "census", Sample.find "google"] s') ∧
    Replying Sample.diskFull ∧
      (Plan.ofTask (Sample.engine.geocode Sample.home)).Ensures Sample.engine Sample.diskFull {} fun o _ =>
        ∃ r, o = .ok r := by
  have hk : Sample.diskFull.CacheFails Eq := cacheFails_breakCache (InMemory.calm Sample.answer) (by rintro ⟨⟩)
  have hreplying : Replying Sample.diskFull := (InMemory.undisturbed Sample.answer_ne_cancelled).replying.breakCache _
  have hrun : ((Sample.engine.bulk [Sample.home, Sample.office]).run Sample.engine Sample.diskFull.world {}).1 =
      some [Sample.find "census", Sample.find "google"] := by
    decide +kernel
  obtain ⟨t, run⟩ := (Plan.executes_of_run _ (Prod.ext hrun rfl)).1
  obtain ⟨t', s', run', -⟩ := ((cache_failures_do_not_show.2 Sample.engine _ Eq hk {} {} rfl).2 _).2.1 t _ _ run
  refine ⟨⟨hk, t', s', run'⟩, hreplying, (cache_failures_do_not_show.1 Sample.engine _ hreplying ?_ Sample.home {}).1⟩
  rintro key s ⟨⟩

end Geocoding.Engine
