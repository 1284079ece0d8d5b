import Geocoding.Proofs.Cascade
import Geocoding.Proofs.Interleaving.Wp

/-!
# Steady collaborators

Collaborators are steady if what they reply depends on nothing but what they are asked: providers have one
answer for each address, and the cache finds under a key what was stored there last. When they reply is
left open, and a call that is in flight when the token fires may end in any way that a cancelled call does.

Tasks share the cache, so what one of them may rely on is that others store nothing but a fixed resolution
under each key, the *target* of the key. This is the promise under which the tasks of the engine are
specified here.
-/

namespace Geocoding

/-- An entry, but for the time it was made at. -/
def Cache.Entry.undated (entry : Entry) : Entry :=
  { entry with cachedAt := 0 }

namespace Engine

variable {σ : Type}

/-- What collaborators reply: providers to an address and to a submission, and the cache by the entries
that it has in a state and that are not too old. -/
structure Conduct (σ : Type) where
  answer : Nat → Address → Except Error Resolution
  mayAnswer : Nat → List Address → Except Error Answers → Prop
  entry : σ → String → Option Cache.Entry
  live : Cache.Entry → Bool

namespace Conduct

variable (m : Conduct σ)

/-- What the cache finds under a key. -/
def hit (s : σ) (key : String) : Option Resolution :=
  ((m.entry s key).filter m.live).map Cache.Entry.toResolution

/-- The entry under a key was made of a resolution, and is not too old. -/
def Holds (key : String) (r : Resolution) (s : σ) : Prop :=
  ∃ now, m.entry s key = some (.ofResolution key r now) ∧ m.live (.ofResolution key r now) = true

/-- The reply to a call that has not been cancelled, with the state that it leaves behind. -/
def Apt : (c : Call) → collaborators.Reply c → σ → Prop
  | .geocode position a, reply, _ => reply = m.answer position a
  | .submit position rows, reply, _ => m.mayAnswer position rows reply
  | .check key, reply, s => reply = .ok (m.hit s key)
  | .store key r, reply, s => reply = .ok () ∧ m.Holds key r s

/-- A call changes no entry, but for the one that a store makes. -/
def Changes (c : Call) (s s' : σ) : Prop :=
  ∀ key, m.entry s' key = m.entry s key ∨ ∃ r, c = .store key r ∧ m.Holds key r s'

variable {m} {key : String} {r : Resolution} {s s' : σ}

theorem hit_congr (h : m.entry s' key = m.entry s key) : m.hit s' key = m.hit s key := by
  unfold hit
  rw [h]

theorem Holds.congr (h : m.Holds key r s) (hentry : m.entry s' key = m.entry s key) :
    m.Holds key r s' := by
  obtain ⟨now, hkept, hlive⟩ := h
  exact ⟨now, hentry.trans hkept, hlive⟩

/-- What was kept is found again. -/
theorem Holds.hit_eq (h : m.Holds key r s) (hr : r.Keepable) : m.hit s key = some r := by
  obtain ⟨now, hkept, hlive⟩ := h
  rw [hit, hkept, Option.filter_some, if_pos hlive, Option.map_some,
    Cache.Entry.toResolution_ofResolution hr]

theorem Holds.undated (h : m.Holds key r s) :
    (m.entry s key).map Cache.Entry.undated = some (.ofResolution key r 0) := by
  obtain ⟨now, hkept, -⟩ := h
  rw [hkept]
  rfl

end Conduct

/-- The engine makes calls of this kind: those to the cache only if there is one. -/
def Makes (e : Engine) : Call → Prop
  | .check _ | .store _ _ => e.caching = true
  | _ => True

/-- The token does not recover. -/
def Setting.Lasts (k : Setting σ) (s s' : σ) : Prop :=
  k.world.fired s = true → k.world.fired s' = true

/-- The collaborators of an engine are steady. -/
structure Steady (e : Engine) (k : Setting σ) (m : Conduct σ) : Prop where
  start : ∀ {c} s, e.Makes c →
    m.Changes c s (k.world.start c s).2 ∧ k.Lasts s (k.world.start c s).2
  finish : ∀ {c} s, e.Makes c → ∃ reply s', k.world.finish c s = (some reply, s') ∧
    m.Changes c s s' ∧ k.Lasts s s' ∧
    (m.Apt c reply s' ∨ k.world.fired s' = true ∧ reply = .error .cancelled)
  abandon : ∀ {c} s, e.Makes c → k.world.fired s = true →
    m.Changes c s (k.world.abandon c s) ∧ k.Lasts s (k.world.abandon c s)
  drift : ∀ {s s'}, k.drift s s' → (∀ key, m.entry s' key = m.entry s key) ∧ k.Lasts s s'

/-- What the cache of an engine finds under a key, if it has one. -/
def found (e : Engine) (m : Conduct σ) (s : σ) (key : String) : Option Resolution :=
  if e.caching then m.hit s key else none

/-- A resolution is the target of a key that the cache does not know, unless the target is there already. -/
def Open (e : Engine) (m : Conduct σ) (target : String → Option Resolution) (key : String) (r : Resolution)
    (s : σ) : Prop :=
  e.caching = true → target key = some r ∧ (m.hit s key = none ∨ m.Holds key r s)

/-- Resolving an address from a position on comes to a resolution: the cache has it, and no task stores
anything else there, or the providers have it and it is the target of the key. -/
def Resolves (e : Engine) (m : Conduct σ) (target : String → Option Resolution) (s : σ) (a : Address)
    (first : Nat) (prior : Option String) (r : Resolution) : Prop :=
  (e.found m s a.key = some r ∧ target a.key = none) ∨
    (consult m.answer a (e.span first e.providers.length) prior = r ∧ e.Open m target a.key r s)

theorem found_congr {e : Engine} {m : Conduct σ} {s s' : σ} {key : String}
    (h : m.entry s' key = m.entry s key) : e.found m s' key = e.found m s key := by
  unfold found
  rw [Conduct.hit_congr h]

/-- What an address comes to depends on no more of the state than the entries. -/
theorem Resolves.congr {e : Engine} {m : Conduct σ} {target : String → Option Resolution} {s s' : σ}
    {a : Address} {first : Nat} {prior : Option String} {r : Resolution}
    (hr : e.Resolves m target s a first prior r) (h : ∀ key, m.entry s' key = m.entry s key) :
    e.Resolves m target s' a first prior r := by
  refine hr.imp (fun ⟨hfound, hnone⟩ => ⟨(found_congr (h a.key)).trans hfound, hnone⟩) ?_
  refine fun ⟨hconsult, hopen⟩ => ⟨hconsult, ?_⟩
  intro hcaching
  obtain ⟨htarget, hmiss⟩ := hopen hcaching
  refine ⟨htarget, hmiss.imp (Conduct.hit_congr (h a.key)).trans fun hkept => hkept.congr (h a.key)⟩

section Steady

variable {e : Engine} {k : Setting σ} {m : Conduct σ} (h : Steady e k m)

namespace Steady

/-- The promise that every entry stays as it is, or becomes that of the target of its key. -/
def promise (target : String → Option Resolution) : Promise k where
  holds s s' := k.Lasts s s' ∧
    ∀ key, m.entry s' key = m.entry s key ∨ ∃ r, target key = some r ∧ m.Holds key r s'
  refl _ := ⟨id, fun _ => .inl rfl⟩
  trans := by
    rintro s s' s'' ⟨hlasts, hentries⟩ ⟨hlasts', hentries'⟩
    refine ⟨hlasts' ∘ hlasts, ?_⟩
    intro key
    rcases hentries' key with hsame | hkept
    · refine (hentries key).imp hsame.trans ?_
      rintro ⟨r, htarget, hkept⟩
      exact ⟨r, htarget, hkept.congr hsame⟩
    · exact .inr hkept
  drift hdrift := ⟨(h.drift hdrift).2, fun key => .inl ((h.drift hdrift).1 key)⟩
  fired hs := hs.1

/-- The promise that no entry changes. -/
abbrev frozen : Promise k :=
  h.promise fun _ => none

variable {target : String → Option Resolution} {s s' : σ} {key : String} {r : Resolution}

theorem frozen_implies : h.frozen.Implies (h.promise target) := by
  rintro s s' ⟨hlasts, hentries⟩
  refine ⟨hlasts, fun key => .inl ?_⟩
  rcases hentries key with hsame | ⟨r, hnone, -⟩
  · exact hsame
  · cases hnone

variable {h}

/-- The entry under a key without target does not change. -/
theorem entry_eq (hs : (h.promise target).holds s s') (hkey : target key = none) :
    m.entry s' key = m.entry s key := by
  rcases hs.2 key with hsame | ⟨r, hsome, -⟩
  · exact hsame
  · rw [hkey] at hsome
    cases hsome

theorem found_eq (hs : (h.promise target).holds s s') (hkey : target key = none) :
    e.found m s' key = e.found m s key := by
  exact found_congr (entry_eq hs hkey)

/-- The target of a key stays there. -/
theorem holds_later (hs : (h.promise target).holds s s') (hkey : target key = some r)
    (hkept : m.Holds key r s) : m.Holds key r s' := by
  rcases hs.2 key with hsame | ⟨r', hsome, hkept'⟩
  · exact hkept.congr hsame
  · rw [hkey, Option.some.injEq] at hsome
    exact hsome ▸ hkept'

theorem lasts_false (hs : (h.promise target).holds s s') (hclear : k.world.fired s' = false) :
    k.world.fired s = false := by
  by_contra hfired
  rw [hs.1 (by simpa using hfired)] at hclear
  cases hclear

theorem open_later (hs : (h.promise target).holds s s') (hopen : e.Open m target key r s) :
    e.Open m target key r s' := by
  intro hcaching
  obtain ⟨htarget, hmiss⟩ := hopen hcaching
  refine ⟨htarget, ?_⟩
  -- Whoever stored something under the key meanwhile stored the target, which is `r`.
  rcases hs.2 key with hsame | ⟨r', hsome, hkept⟩
  · rw [Conduct.hit_congr hsame]
    exact hmiss.imp_right (·.congr hsame)
  · rw [htarget, Option.some.injEq] at hsome
    exact .inr (hsome ▸ hkept)

/-- What a lookup finds while an address is resolved: its resolution, or nothing, and then the providers
have it. -/
theorem found_of_resolves {a : Address} {first : Nat} {prior : Option String}
    (hr : e.Resolves m target s a first prior r) (hs : (h.promise target).holds s s') :
    (e.found m s' a.key = some r ∧ (e.caching = true → target a.key = some r → m.Holds a.key r s')) ∨
      (e.found m s' a.key = none ∧
        consult m.answer a (e.span first e.providers.length) prior = r ∧
        (e.caching = true → target a.key = some r)) := by
  rcases hr with ⟨hfound, hnone⟩ | ⟨hconsult, hopen⟩
  · refine .inl ⟨(found_eq hs hnone).trans hfound, ?_⟩
    intro _ hsome
    rw [hnone] at hsome
    cases hsome
  · -- What providers come to survives the way into the cache and back.
    have hkeepable : r.Keepable := hconsult ▸ keepable_consult _ _
    cases hcaching : e.caching with
    | false => exact .inr ⟨by simp [Engine.found, hcaching], hconsult, by simp⟩
    | true =>
      obtain ⟨htarget, hnone | hkept⟩ := open_later hs hopen hcaching
      · exact .inr ⟨by simp [Engine.found, hcaching, hnone], hconsult, fun _ => htarget⟩
      · exact .inl ⟨by simp [Engine.found, hcaching, hkept.hit_eq hkeepable], fun _ _ => hkept⟩

theorem changes (hlasts : k.Lasts s s') {c : Call} (hchanges : m.Changes c s s')
    (hstore : ∀ key r, c = .store key r → target key = some r) : (h.promise target).holds s s' :=
  ⟨hlasts, fun key => (hchanges key).imp_right fun ⟨r, hc, hkept⟩ => ⟨r, hstore key r hc, hkept⟩⟩

variable (h)

/-- A call of the engine keeps the promise if it stores no more than a target. -/
theorem calls {c : Call} {P : collaborators.Reply c → σ → Prop} (hc : e.Makes c)
    (hstore : ∀ key r, c = .store key r → target key = some r)
    (hP : ∀ reply s', (h.promise target).holds s s' →
      m.Apt c reply s' ∨ k.world.fired s' = true ∧ reply = .error .cancelled → P reply s') :
    Calls (h.promise target) c P s := by
  intro s₁ hs₁
  obtain ⟨hchanges, hlasts⟩ := h.start s₁ hc
  have hstart : (h.promise target).holds s₁ (k.world.start c s₁).2 := changes hlasts hchanges hstore
  refine ⟨hstart, ?_⟩
  intro s₂ hs₂
  -- Others may step before the call starts and while it waits; it ends or is given up after that.
  have hsofar := (h.promise target).trans hs₁ ((h.promise target).trans hstart hs₂)
  constructor
  · obtain ⟨reply, s₃, hfinish, hchanges, hlasts, hreply⟩ := h.finish s₂ hc
    have hs₃ : (h.promise target).holds s₂ s₃ := changes hlasts hchanges hstore
    exact ⟨reply, s₃, hfinish, hs₃, hP reply s₃ ((h.promise target).trans hsofar hs₃) hreply⟩
  · intro hfired
    obtain ⟨hchanges, hlasts⟩ := h.abandon s₂ hc hfired
    have hs₃ : (h.promise target).holds s₂ (k.world.abandon c s₂) := changes hlasts hchanges hstore
    exact ⟨hs₃, hP _ _ ((h.promise target).trans hsofar hs₃) (.inr ⟨hlasts hfired, rfl⟩)⟩

theorem wp_guarded {c : Call} {Q : collaborators.Reply c → σ → Prop} (hc : e.Makes c)
    (hstore : ∀ key r, c = .store key r → target key = some r)
    (happly : ∀ reply s₁ s', (h.promise target).holds s s₁ → (h.promise target).holds s₁ s' →
      m.Apt c reply s₁ → Q reply s')
    (hcancel : ∀ s', (h.promise target).holds s s' → k.world.fired s' = true →
      Q (.error .cancelled) s') :
    wp (h.promise target) Q (Program.guarded collaborators c) s := by
  refine wp.guarded hcancel (h.calls hc hstore ?_)
  intro reply s₁ hs₁ hreply s' hs'
  rcases hreply with hapt | ⟨hfired, rfl⟩
  · exact happly reply s₁ s' hs₁ hs' hapt
  · exact hcancel s' ((h.promise target).trans hs₁ hs') (hs'.1 hfired)

/-- A lookup finds what the cache has at some moment while it runs. -/
theorem wp_lookup {Q : Except Error (Option Resolution) → σ → Prop}
    (hfound : ∀ s₁ s', (h.promise target).holds s s₁ → (h.promise target).holds s₁ s' →
      Q (.ok (e.found m s₁ key)) s')
    (hcancel : ∀ s', (h.promise target).holds s s' → k.world.fired s' = true →
      Q (.error .cancelled) s') :
    wp (h.promise target) Q (e.lookup key) s := by
  unfold lookup
  cases hcaching : e.caching with
  | false =>
    intro s' hs'
    simpa [found, hcaching] using hfound s s' ((h.promise target).refl s) hs'
  | true =>
    refine wp.bind (h.wp_guarded hcaching (by rintro key r ⟨⟩) ?_ ?_)
    · intro reply s₁ s₂ hs₁ hs₂ hapt
      obtain rfl : reply = .ok (m.hit s₁ key) := hapt
      intro s' hs'
      simpa [found, hcaching] using hfound s₁ s' hs₁ ((h.promise target).trans hs₂ hs')
    · intro s₁ hs₁ hfired s' hs'
      exact hcancel s' ((h.promise target).trans hs₁ hs') (hs'.1 hfired)

/-- What is kept is there from then on, unless the token has fired. -/
theorem wp_keep {Q : Unit → σ → Prop} (hkey : e.caching = true → target key = some r)
    (hQ : ∀ s', (h.promise target).holds s s' →
      (e.caching = true → k.world.fired s' = false → m.Holds key r s') → Q () s') :
    wp (h.promise target) Q (e.keep key r) s := by
  unfold keep
  cases hcaching : e.caching with
  | false =>
    intro s' hs'
    exact hQ s' hs' (by simp [hcaching])
  | true =>
    have htarget := hkey hcaching
    refine wp.bind (h.wp_guarded hcaching ?_ ?_ ?_)
    · rintro _ _ ⟨⟩
      exact htarget
    · intro reply s₁ s₂ hs₁ hs₂ hapt s' hs'
      have hs := (h.promise target).trans hs₂ hs'
      exact hQ s' ((h.promise target).trans hs₁ hs) fun _ _ => holds_later hs htarget hapt.2
    · intro s₁ hs₁ hfired s' hs'
      apply hQ s' ((h.promise target).trans hs₁ hs')
      intro _ hclear
      rw [hs'.1 hfired] at hclear
      cases hclear

/-- Once the token has fired no provider is asked, and there is no outcome. -/
theorem wp_askAll_fired {a : Address} {Q : Except Error Resolution → σ → Prop}
    (hfired : k.world.fired s = true)
    (hcancel : ∀ s', (h.promise target).holds s s' → Q (.error .cancelled) s')
    (providers : List (Provider × Nat)) (last : Option String) :
    wp (h.promise target) Q (askAll a providers last) s := by
  cases providers with
  | nil | cons provider rest =>
    apply wp.fired
    intro s₁ hs₁
    rw [hs₁.1 hfired]
    intro s' hs'
    exact hcancel s' ((h.promise target).trans hs₁ hs')

/-- Providers are asked to the end, with the outcome that their answers have, or the token has fired. -/
theorem wp_askAll {a : Address} {Q : Except Error Resolution → σ → Prop}
    (providers : List (Provider × Nat)) (last : Option String)
    (hQ : ∀ s', (h.promise target).holds s s' → Q (.ok (consult m.answer a providers last)) s')
    (hcancel : ∀ s', (h.promise target).holds s s' → k.world.fired s' = true →
      Q (.error .cancelled) s') :
    wp (h.promise target) Q (askAll a providers last) s := by
  induction providers generalizing last s with
  | nil =>
    apply wp.fired
    intro s₁ hs₁
    cases hfired : k.world.fired s₁ with
    | true =>
      intro s' hs'
      exact hcancel s' ((h.promise target).trans hs₁ hs') (hs'.1 hfired)
    | false =>
      intro s' hs'
      exact hQ s' ((h.promise target).trans hs₁ hs')
  | cons provider rest ih =>
    obtain ⟨p, position⟩ := provider
    apply wp.fired
    intro s₁ hs₁
    -- The rest of the cascade, where it comes to the same as the whole.
    have hlater : ∀ s₂, (h.promise target).holds s₁ s₂ → ∀ last',
        consult m.answer a ((p, position) :: rest) last = consult m.answer a rest last' →
        wp (h.promise target) Q (askAll a rest last') s₂ := by
      intro s₂ hs₂ last' hsame
      have hs := (h.promise target).trans hs₁ hs₂
      refine ih last' ?_ fun s' hs' => hcancel s' ((h.promise target).trans hs hs')
      intro s' hs'
      rw [← hsame]
      exact hQ s' ((h.promise target).trans hs hs')
    cases hfired : k.world.fired s₁ with
    | true =>
      intro s' hs'
      exact hcancel s' ((h.promise target).trans hs₁ hs') (hs'.1 hfired)
    | false =>
      simp only [Bool.false_eq_true, if_false]
      split
      next hunavailable =>
        exact hlater s₁ ((h.promise target).refl s₁) last (by rw [consult, if_pos hunavailable])
      next havailable =>
        have hconsult : consult m.answer a ((p, position) :: rest) last = _ :=
          consult_cons (by simpa using havailable) rest last
        refine wp.bind (h.wp_guarded trivial (by rintro key r ⟨⟩) ?_ ?_)
        · intro reply s₂ s₃ hs₂ hs₃ hapt
          obtain rfl : reply = m.answer position a := hapt
          have hs := (h.promise target).trans hs₂ hs₃
          cases hanswer : m.answer position a with
          | error error =>
            rw [hanswer] at hconsult
            exact hlater s₃ hs _ hconsult
          | ok r =>
            rw [hanswer] at hconsult
            simp only at hconsult ⊢
            split
            next hmatched =>
              rw [if_pos hmatched] at hconsult
              intro s' hs'
              rw [← hconsult]
              exact hQ s' ((h.promise target).trans hs₁ ((h.promise target).trans hs hs'))
            next hunmatched =>
              rw [if_neg hunmatched] at hconsult
              exact hlater s₃ hs _ hconsult
        · intro s₂ hs₂ hfired₂
          have hs := (h.promise target).trans hs₁ hs₂
          -- A call that was cancelled looks like a failure of its provider, but the next look sees why.
          exact h.wp_askAll_fired hfired₂
            (fun s' hs' => hcancel s' ((h.promise target).trans hs hs') (hs'.1 hfired₂)) rest _

/-- Resolving an address comes to its resolution, whoever else stores it meanwhile; if that is the target
of the key, it is kept from then on. -/
theorem wp_resolve {a : Address} {first : Nat} {prior : Option String}
    {Q : Except Error Resolution → σ → Prop} (hr : e.Resolves m target s a first prior r)
    (hQ : ∀ s', (h.promise target).holds s s' →
      (e.caching = true → target a.key = some r → k.world.fired s' = false → m.Holds a.key r s') →
      Q (.ok r) s')
    (hcancel : ∀ s', (h.promise target).holds s s' → k.world.fired s' = true →
      Q (.error .cancelled) s') :
    wp (h.promise target) Q (e.resolve a first prior) s := by
  apply wp.fired
  intro s₁ hs₁
  cases hfired : k.world.fired s₁ with
  | true =>
    intro s' hs'
    exact hcancel s' ((h.promise target).trans hs₁ hs') (hs'.1 hfired)
  | false =>
    simp only [Bool.false_eq_true, if_false]
    refine wp.bind (h.wp_lookup ?_ ?_)
    · intro s₂ s₃ hs₂ hs₃
      have hs₂ := (h.promise target).trans hs₁ hs₂
      -- Either the cache has the outcome at the moment of the check, or the providers are asked.
      rcases found_of_resolves hr hs₂ with ⟨hfound, hkept⟩ | ⟨hfound, hconsult, htarget⟩
      · rw [hfound]
        intro s' hs'
        have hs := (h.promise target).trans hs₃ hs'
        exact hQ s' ((h.promise target).trans hs₂ hs) fun hcaching htarget _ =>
          holds_later hs htarget (hkept hcaching htarget)
      · rw [hfound]
        refine wp.bind (h.wp_askAll _ _ ?_ ?_)
        · intro s₄ hs₄
          rw [hconsult]
          have hs := (h.promise target).trans hs₂ ((h.promise target).trans hs₃ hs₄)
          refine wp.bind (h.wp_keep htarget ?_)
          intro s₅ hs₅ hkept s' hs'
          refine hQ s' ((h.promise target).trans hs ((h.promise target).trans hs₅ hs')) ?_
          intro hcaching hsome hclear
          exact holds_later hs' hsome (hkept hcaching (lasts_false hs' hclear))
        · intro s₄ hs₄ hfired₄ s' hs'
          have hs := (h.promise target).trans hs₃ ((h.promise target).trans hs₄ hs')
          exact hcancel s' ((h.promise target).trans hs₂ hs) (hs'.1 hfired₄)
    · intro s₂ hs₂ hfired₂ s' hs'
      exact hcancel s' ((h.promise target).trans hs₁ ((h.promise target).trans hs₂ hs')) (hs'.1 hfired₂)

end Steady

end Steady

end Engine

end Geocoding
