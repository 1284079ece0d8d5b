import Geocoding.Proofs.Interleaving.Stories
import Geocoding.Proofs.Steady.Memory

/-!
# What a single address comes to

A run for one address is told from its calls: the cache is looked into, the available providers are asked one
after the other, as far as the first that has a match, and what came of it is kept. The only error that it can
end in is the cancellation that the lookup has reported.
-/

namespace Geocoding.Engine

/-- A provider that was asked, and what it replied. -/
structure Inquiry where
  provider : Provider
  position : Nat
  reply : Except Error Resolution

namespace Inquiry

/-- What a run shows of asking a provider about an address. -/
def log (a : Address) (q : Inquiry) : List Event :=
  [.started none (.geocode q.position a), .answered none (.geocode q.position a) q.reply]

/-- The provider, with its position in the order. -/
def asked (q : Inquiry) : Provider × Nat :=
  (q.provider, q.position)

/-- The provider has a match. -/
def found (q : Inquiry) : Bool :=
  match q.reply with
  | .ok r => r.matched
  | .error _ => false

/-- The provider has answered, or failed for another reason than that it is not configured. -/
def attempted (q : Inquiry) : Bool :=
  match q.reply with
  | .ok _ => true
  | .error error => !error.isNotConfigured

/-- The provider that was attempted last, or else `last`. -/
def lastAttempted (last : String) (qs : List Inquiry) : String :=
  ((qs.filter attempted).getLast?.map (·.provider.name)).getD last

theorem lastAttempted_cons (last : String) (q : Inquiry) (qs : List Inquiry) :
    lastAttempted last (q :: qs) = lastAttempted (if q.attempted then q.provider.name else last) qs := by
  unfold lastAttempted
  rw [List.filter_cons]
  split
  · cases h : (qs.filter attempted).getLast? <;> simp [List.getLast?_cons, h]
  · rfl

end Inquiry

/-- What comes of asking providers in order, all of them available: the first match, or, if nobody has one, an
unmatched resolution that names the last attempt. -/
inductive Settles (providers : List (Provider × Nat)) (last : String) : List Inquiry → Resolution → Prop where
  | found {before : List Inquiry} {q : Inquiry} {r : Resolution} (unfound : ∀ q ∈ before, q.found = false)
      (reply : q.reply = .ok r) (matched : r.matched = true)
      (inOrder : (before ++ [q]).map Inquiry.asked <+: providers) : Settles providers last (before ++ [q]) r
  | exhausted {qs : List Inquiry} (unfound : ∀ q ∈ qs, q.found = false)
      (all : qs.map Inquiry.asked = providers) :
      Settles providers last qs {
        latitude := Double.zero, longitude := Double.zero, source := Inquiry.lastAttempted last qs,
        quality := none, matched := false, rating := 0, countyFips := "" }

/-- A provider without a match is asked before the others. -/
theorem Settles.cons {q : Inquiry} {providers : List (Provider × Nat)} {last last' : String} {qs : List Inquiry}
    {r : Resolution} (hq : q.found = false) (hlast : last' = if q.attempted then q.provider.name else last)
    (h : Settles providers last' qs r) : Settles (q.asked :: providers) last (q :: qs) r := by
  cases h with
  | @found before q' r unfound reply matched inOrder =>
    rw [← List.cons_append]
    refine .found (List.forall_mem_cons.2 ⟨hq, unfound⟩) reply matched ?_
    simpa using inOrder
  | exhausted unfound all =>
    rw [hlast, ← Inquiry.lastAttempted_cons]
    exact .exhausted (List.forall_mem_cons.2 ⟨hq, unfound⟩) (by rw [List.map_cons, all])

/-- The providers that can be asked, with their positions. -/
def askable (e : Engine) : List (Provider × Nat) :=
  e.providers.zipIdx.filter (·.1.available)

/-- What a run for an address shows, and what it comes to. -/
inductive Course (e : Engine) (a : Address) : List Event → Except Error Resolution → Prop where
  /-- The cache knows the address, and nothing else is asked. -/
  | recalled {hit : Resolution} (caching : e.caching = true) :
      Course e a [.started none (.check a.key), .answered none (.check a.key) (.ok (some hit))] (.ok hit)
  /-- The lookup is reported as cancelled. -/
  | cancelled (caching : e.caching = true) :
      Course e a [.started none (.check a.key), .answered none (.check a.key) (.error .cancelled)]
        (.error .cancelled)
  /-- The lookup misses or fails, the providers are asked, and what comes of it is kept. -/
  | resolved {miss : Except Error (Option Resolution)} {qs : List Inquiry} {r : Resolution} {stored : Except Error Unit}
      (caching : e.caching = true) (missed : miss = .ok none ∨ ∃ error, error ≠ .cancelled ∧ miss = .error error)
      (settles : Settles e.askable "" qs r) :
      Course e a ([.started none (.check a.key), .answered none (.check a.key) miss] ++ qs.flatMap (Inquiry.log a) ++
        [.started none (.store a.key r), .answered none (.store a.key r) stored]) (.ok r)
  /-- There is no cache, and the providers are asked. -/
  | uncached {qs : List Inquiry} {r : Resolution} (caching : e.caching = false) (settles : Settles e.askable "" qs r) :
      Course e a (qs.flatMap (Inquiry.log a)) (.ok r)

section Task

variable {e : Engine} {a : Address} {t : List Event}

theorem shows_askAll {providers : List (Provider × Nat)} {last : Option String} {o : Except Error Resolution}
    (h : Shows none (askAll a providers last) t (some o)) :
    ∃ qs r, o = .ok r ∧ t = qs.flatMap (Inquiry.log a) ∧
      Settles (providers.filter (·.1.available)) (last.getD "") qs r := by
  induction providers generalizing t last with
  | nil =>
    obtain ⟨rfl, ho⟩ := h
    exact ⟨[], _, Option.some.inj ho, rfl, .exhausted (List.forall_mem_nil _) rfl⟩
  | cons provider rest ih =>
    obtain ⟨p, position⟩ := provider
    change Shows none (if !p.available then _ else _) _ _ at h
    split at h
    next hunavailable =>
      rw [List.filter_cons_of_neg (by simpa using hunavailable)]
      exact ih h
    next havailable =>
      rw [List.filter_cons_of_pos (by simpa using havailable)]
      obtain ⟨t₁, reply, t₂, rfl, hcall, hrest⟩ | ⟨-, ⟨⟩⟩ := h.bind
      obtain ⟨reply, rfl, ⟨⟩⟩ | ⟨-, ⟨⟩⟩ := hcall.guarded
      -- Unless the provider has a match, the others are asked, and they know whom it leaves as the last attempt.
      have hlater : ∀ {last' : Option String}, Inquiry.found ⟨p, position, reply⟩ = false →
          last'.getD "" = (if Inquiry.attempted ⟨p, position, reply⟩ then p.name else last.getD "") →
          Shows none (askAll a rest last') t₂ (some o) → ∃ qs r, o = .ok r ∧
            [.started none (.geocode position a), .answered none (.geocode position a) reply] ++ t₂ =
              qs.flatMap (Inquiry.log a) ∧
            Settles ((p, position) :: rest.filter (·.1.available)) (last.getD "") qs r := by
        intro last' hunfound hlast hrest
        obtain ⟨qs, r, rfl, rfl, hsettles⟩ := ih hrest
        exact ⟨⟨p, position, reply⟩ :: qs, r, rfl, rfl, hsettles.cons hunfound hlast⟩
      cases reply with
      | error error =>
        refine hlater rfl ?_ hrest
        cases hconfigured : error.isNotConfigured <;> simp [Inquiry.attempted, hconfigured]
      | ok r =>
        simp only at hrest
        split at hrest
        next hmatched =>
          obtain ⟨rfl, ho⟩ := hrest
          refine ⟨[⟨p, position, .ok r⟩], r, Option.some.inj ho, rfl, ?_⟩
          exact .found (List.forall_mem_nil _) rfl hmatched (by simp [Inquiry.asked])
        next hunmatched => exact hlater (by simpa [Inquiry.found] using hunmatched) rfl hrest

theorem shows_cascade {o : Except Error Resolution}
    (h : Shows none (e.cascade a 0 e.providers.length none) t (some o)) :
    ∃ qs r, o = .ok r ∧ t = qs.flatMap (Inquiry.log a) ∧ Settles e.askable "" qs r := by
  have hspan : e.span 0 e.providers.length = e.providers.zipIdx := e.span_length
  have hsettles := shows_askAll h
  rwa [hspan] at hsettles

/-- What is done about an address that the cache does not know. -/
def askAndKeep (e : Engine) (a : Address) : Task (Except Error Resolution) :=
  (e.cascade a 0 e.providers.length none).bind fun
    | .error error => .done (.error error)
    | .ok r => (e.keep a.key r).bind fun _ => .done (.ok r)

/-- Providers are asked, and what comes of it is kept if there is a cache. -/
theorem shows_askAndKeep {o : Except Error Resolution} (h : Shows none (e.askAndKeep a) t (some o)) :
    ∃ qs r t', o = .ok r ∧ t = qs.flatMap (Inquiry.log a) ++ t' ∧ Settles e.askable "" qs r ∧
      (e.caching = false → t' = []) ∧
      (e.caching = true → ∃ stored, t' = [.started none (.store a.key r), .answered none (.store a.key r) stored]) := by
  obtain ⟨t₁, outcome, t₂, rfl, hcascade, hkept⟩ | ⟨-, ⟨⟩⟩ := h.bind
  obtain ⟨qs, r, rfl, rfl, hsettles⟩ := shows_cascade hcascade
  obtain ⟨t₃, ⟨⟩, t₄, rfl, hkeep, rfl, ⟨⟩⟩ | ⟨-, ⟨⟩⟩ := Shows.bind (p := e.keep a.key r) hkept
  refine ⟨qs, r, _, rfl, rfl, hsettles, fun hcaching => ?_, fun hcaching => ?_⟩
  · unfold keep at hkeep
    rw [hcaching] at hkeep
    obtain ⟨rfl, -⟩ := hkeep
    rfl
  · unfold keep at hkeep
    rw [hcaching] at hkeep
    obtain ⟨t₄, stored, t₅, rfl, hstore, rfl, -⟩ | ⟨-, ⟨⟩⟩ := Shows.bind hkeep
    obtain ⟨stored, rfl, -⟩ | ⟨-, ⟨⟩⟩ := hstore.guarded
    exact ⟨stored, by simp⟩

/-- Every run for an address takes one of the courses. -/
theorem course_of_shows {o : Except Error Resolution} (h : Shows none (e.geocode a) t (some o)) :
    e.Course a t o := by
  change Shows none ((e.lookup a.key).bind _) t (some o) at h
  obtain ⟨t₁, found, t₂, rfl, hlookup, hrest⟩ | ⟨-, ⟨⟩⟩ := h.bind
  unfold lookup at hlookup
  cases hcaching : e.caching with
  | false =>
    rw [hcaching] at hlookup
    obtain ⟨rfl, ⟨⟩⟩ := hlookup
    obtain ⟨qs, r, _, rfl, rfl, hsettles, hnothing, -⟩ := shows_askAndKeep hrest
    simpa [hnothing hcaching] using Course.uncached hcaching hsettles
  | true =>
    rw [hcaching] at hlookup
    obtain ⟨t₀, reply, t₁', rfl, hcall, hlooked⟩ | ⟨-, ⟨⟩⟩ := Shows.bind hlookup
    obtain ⟨reply, rfl, ⟨⟩⟩ | ⟨-, ⟨⟩⟩ := hcall.guarded
    have hresolved : (reply = .ok none ∨ ∃ error, error ≠ .cancelled ∧ reply = .error error) →
        Shows none (e.askAndKeep a) t₂ (some o) →
        e.Course a ([.started none (.check a.key), .answered none (.check a.key) reply] ++ t₂) o := by
      intro hmissed hasked
      obtain ⟨qs, r, _, rfl, rfl, hsettles, -, hstored⟩ := shows_askAndKeep hasked
      obtain ⟨stored, rfl⟩ := hstored hcaching
      simpa using @Course.resolved e a reply qs r stored hcaching hmissed hsettles
    cases reply with
    | ok found =>
      obtain ⟨rfl, ⟨⟩⟩ := hlooked
      cases found with
      | none => simpa using hresolved (.inl rfl) hrest
      | some hit =>
        obtain ⟨rfl, ⟨⟩⟩ := hrest
        exact .recalled hcaching
    | error error =>
      by_cases hcancelled : error = .cancelled
      · subst hcancelled
        obtain ⟨rfl, ⟨⟩⟩ := hlooked
        obtain ⟨rfl, ⟨⟩⟩ := hrest
        exact .cancelled hcaching
      · have hclear : error.isCancelled = false := by
          cases error <;> first | rfl | exact absurd rfl hcancelled
        simp only [hclear] at hlooked
        obtain ⟨rfl, ⟨⟩⟩ := hlooked
        simpa using hresolved (.inr ⟨error, hcancelled, rfl⟩) hrest

end Task

/-- To resolve an address is to take one of the courses, to its end. The only error is a lookup reported as
cancelled. -/
theorem geocode_takes_its_course {σ : Type} (e : Engine) (k : Setting σ) (hk : Replying k) (a : Address) (s : σ) :
    (Plan.ofTask (e.geocode a)).Ensures e k s (fun o _ => ∀ error, o = .error error → error = .cancelled) ∧
    ∀ t o s', (Plan.ofTask (e.geocode a)).Executes e k s t o s' → e.Course a t o ∧
      (∀ error, o = .error error → .answered none (.check a.key) (.error .cancelled) ∈ t) := by
  have hcourse : ∀ t o s', (Plan.ofTask (e.geocode a)).Executes e k s t o s' → e.Course a t o :=
    fun _ _ _ run => course_of_shows (run.shows hk.clear).ofTask
  refine ⟨⟨(hk.ensures _ s).1, fun t o s' run => ?_⟩, fun t o s' run => ⟨hcourse t o s' run, ?_⟩⟩
  · rintro error rfl
    cases hcourse t _ s' run with
    | cancelled => rfl
  · rintro error rfl
    cases hcourse t _ s' run with
    | cancelled => simp

theorem InMemory.replying (answer : Nat → Address → Except Error Resolution) : Replying (setting answer false) where
  clear := calm answer
  reply c s := by
    cases c <;> exact ⟨_, _, rfl⟩

namespace Sample

/-- Three providers, of which the second cannot be asked. -/
def trio : Engine :=
  .ofProviders [{ name := "google" }, { name := "tiger", available := false }, { name := "census" }] true

/-- The first provider is out of order, and the third is configured for one state only. -/
def stumble : Nat → Address → Except Error Resolution
  | 2, a => if a.state = "DC" then .ok (find "census") else .error (.notConfigured "elsewhere")
  | _, _ => .error .cancelled

end Sample

/-- An address that the third provider finds, and one that nobody finds; for this one the first provider is
named, because the third is not configured. -/
theorem geocode_takes_its_course_two :
    Replying (InMemory.setting Sample.stumble false) ∧
    (∃ t, Course Sample.trio Sample.home t (.ok (Sample.find "census"))) ∧
    ∃ t, Course Sample.trio Sample.office t (.ok (.unmatched "google")) := by
  have hk := InMemory.replying Sample.stumble
  have hhome : ((Plan.ofTask (Sample.trio.geocode Sample.home)).run Sample.trio
      (InMemory.setting Sample.stumble false).world {}).1 = some (.ok (Sample.find "census")) := by
    decide +kernel
  have hoffice : ((Plan.ofTask (Sample.trio.geocode Sample.office)).run Sample.trio
      (InMemory.setting Sample.stumble false).world {}).1 = some (.ok (.unmatched "google")) := by
    decide +kernel
  obtain ⟨t, run⟩ := (Plan.executes_of_run _ (Prod.ext hhome rfl)).1
  obtain ⟨t', run'⟩ := (Plan.executes_of_run _ (Prod.ext hoffice rfl)).1
  exact ⟨hk, ⟨t, ((geocode_takes_its_course Sample.trio _ hk Sample.home {}).2 t _ _ run).1⟩,
    t', ((geocode_takes_its_course Sample.trio _ hk Sample.office {}).2 t' _ _ run').1⟩

end Geocoding.Engine
