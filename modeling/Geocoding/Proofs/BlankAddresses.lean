import Geocoding.Proofs.Assurances
import Geocoding.Proofs.BlankAddresses.Backends
import Geocoding.Proofs.SingleAddress

/-!
# Blank addresses reach no backend

A row with a blank address takes part in a run like any other one: it may be looked up, handed to every provider,
submitted in a chunk, and handed on when the chunk is refused or comes back garbled. The backends spare it each
time, so nobody is asked about it, and unless the cache knows better it ends unmatched. A run may also be called
off, or break down.
-/

namespace Geocoding

namespace Engine

/-- Jobs may only call about their rows, and the run itself may only submit rows. -/
def PermittedFor (rows : List Row) : Option Job → Call → Prop
  | some j, c => j.row ∈ rows ∧ ∀ a ∈ c.about, a = j.row.address
  | none, c => ∀ a ∈ c.about, ∃ row ∈ rows, a = submitted row

/-- A reply does not call a blank address a match. -/
def Sober : (c : Call) → collaborators.Reply c → Prop
  | .geocode _ a, reply => NoMatch (a.isBlank = true) reply
  | .submit _ rows, reply => ∀ answers id r, reply = .ok answers → (∀ a ∈ rows, a.id = id → a.isBlank = true) →
      answers.get? id = some r → r.matched = false
  | .check _, _ | .store .., _ => True

/-- A lookup has a hit. -/
def IsHit : (c : Call) → collaborators.Reply c → Prop
  | .check _, reply => ∃ hit, reply = .ok (some hit)
  | .geocode .., _ | .submit .., _ | .store .., _ => False

/-- Replies are sober, and some lookups have no hits. -/
def soberTerms (permits : Option Job → Call → Prop) (unknown : Option Job → Prop) : Terms where
  permits
  expects who c reply := Sober c reply ∧ (unknown who → ¬ IsHit c reply)
  cancelled who c := by
    cases c with
    | geocode position a => exact ⟨by rintro _ r ⟨⟩, fun _ => id⟩
    | submit position rows => exact ⟨(by rintro answers id r ⟨⟩), fun _ => id⟩
    | check key => exact ⟨trivial, by rintro _ ⟨hit, ⟨⟩⟩⟩
    | store key r => exact ⟨trivial, fun _ => id⟩

theorem soberTerms_about (e : Engine) (a : Address) (who : Option Job) {permits : Option Job → Call → Prop}
    {unknown : Option Job → Prop} {quiet : Prop} (hpermits : ∀ c : Call, (∀ a' ∈ c.about, a' = a) → permits who c)
    (hquiet : quiet → a.isBlank = true ∧ unknown who) : (soberTerms permits unknown).About e who a quiet where
  geocode position _ := hpermits _ (by simp [Call.about])
  check := hpermits _ (by simp [Call.about])
  store r := hpermits _ (by simp [Call.about])
  noMatch position reply hreply hq := hreply.1 (hquiet hq).1
  noHit hq hit hreply := hreply.2 (hquiet hq).2 ⟨hit, rfl⟩

/-- Rows are spared if they are blank and unknown to the cache. -/
theorem soberTerms_aboutRows (e : Engine) {rows : List Row} (hnodup : (rows.map Row.index).Nodup)
    (unknown : Row → Prop) :
    (soberTerms (PermittedFor rows) fun who => ∃ j, who = some j ∧ unknown j.row).AboutRows e rows fun row =>
      row.address.isBlank = true ∧ unknown row where
  jobs j hj := soberTerms_about e j.row.address (some j) (fun c hc => ⟨hj, hc⟩) fun h => ⟨h.1, j, rfl, h.2⟩
  submit position _ chunk hchunk a ha := by
    obtain ⟨row, hrow, rfl⟩ := List.mem_map.1 ha
    exact ⟨row, hchunk hrow, rfl⟩
  noMatch position chunk answers hchunk hreply row hrow hspared r hr := by
    refine hreply.1 answers _ r rfl (fun a ha hid => ?_) hr
    obtain ⟨row', hrow', rfl⟩ := List.mem_map.1 ha
    obtain rfl := eq_of_index_eq hnodup (hchunk hrow') hrow (repr_injective hid)
    exact hspared.1

end Engine

namespace Setup

open Engine

variable {σ : Type}

/-- The program by which a call is carried out outside of the process, if it is; `now` is the time. -/
def carried (u : Setup) (now : Time) : (c : Call) → Option (Program services (collaborators.Reply c))
  | .geocode position a => u.backends[position]?.map (Backend.geocode a)
  | .submit position rows => u.backends[position]?.map (Backend.submit rows)
  | .check key => match u.store with
    | .table t => some (t.check key).overDatabase
    | _ => none
  | .store key r => match u.store with
    | .table t => some (t.store key r now).overDatabase
    | _ => none

/-- A call to a service is a statement about cache entries, or a query of one of the backends about addresses. -/
def MayAsk (u : Setup) (addresses : List Address) (service : Service) : Prop :=
  service.OnCache ∨ ∃ b ∈ u.backends, b.Queries addresses service

/-- What backends reply is what their programs may come to, for some replies of the services. Everything else about
the collaborators is left open, and so is what the cache replies. -/
structure StandsBehind (u : Setup) (k : Setting σ) : Prop where
  geocode : ∀ {position a s reply s'}, k.world.finish (.geocode position a) s = (some reply, s') →
    ∃ b ∈ u.backends, (b.geocode a).Yields reply
  submit : ∀ {position rows s reply s'}, k.world.finish (.submit position rows) s = (some reply, s') →
    ∃ b ∈ u.backends, (b.submit rows).Yields reply

/-- A call that is carried out outside of the process is its program, run there. -/
theorem finish_world (u : Setup) (w : World services σ) (clock : σ → Time) {c : Call}
    {p : Program services (collaborators.Reply c)} {s : State σ} (h : u.carried (clock s.outside) c = some p) :
    (u.world w clock).finish c s = s.run w p := by
  cases c with
  | geocode position a =>
    obtain ⟨b, hb, rfl⟩ := Option.map_eq_some_iff.1 h
    simp [world, World.immediate, hb]
  | submit position rows =>
    obtain ⟨b, hb, rfl⟩ := Option.map_eq_some_iff.1 h
    simp [world, World.immediate, hb]
  | check key =>
    simp only [carried] at h
    split at h
    next t ht =>
      cases h
      simp [world, World.immediate, ht]
    next => cases h
  | store key r =>
    simp only [carried] at h
    split at h
    next t ht =>
      cases h
      simp [world, World.immediate, ht]
    next => cases h

theorem yields_of_run {α : Type} {w : World services σ} {p : Program services α} {s s' : State σ} {a : α}
    (h : s.run w p = (some a, s')) : p.Yields a := by
  obtain ⟨houtcome, -⟩ := Prod.mk.inj h
  exact Program.yields_of_run (w := w) (s := s.outside) (Prod.ext houtcome rfl)

/-- A setup stands behind its calls, whatever the services are. -/
theorem standsBehind_world (u : Setup) (w : World services σ) (clock : σ → Time) (drift : State σ → State σ → Prop) :
    u.StandsBehind { world := u.world w clock, drift } where
  geocode {position a s reply s'} h := by
    cases hb : u.backends[position]? with
    | none => simp [world, World.immediate, hb] at h
    | some b =>
      have hcarried : u.carried (clock s.outside) (.geocode position a) = some (b.geocode a) := by simp [carried, hb]
      rw [u.finish_world w clock hcarried] at h
      exact ⟨b, List.mem_of_getElem? hb, yields_of_run h⟩
  submit {position rows s reply s'} h := by
    cases hb : u.backends[position]? with
    | none => simp [world, World.immediate, hb] at h
    | some b =>
      have hcarried : u.carried (clock s.outside) (.submit position rows) = some (b.submit rows) := by
        simp [carried, hb]
      rw [u.finish_world w clock hcarried] at h
      exact ⟨b, List.mem_of_getElem? hb, yields_of_run h⟩

theorem StandsBehind.sober {u : Setup} {k : Setting σ} (hk : u.StandsBehind k) {c : Call}
    {reply : collaborators.Reply c} {s s' : σ} (h : k.world.finish c s = (some reply, s')) : Sober c reply := by
  cases c with
  | geocode position a =>
    obtain ⟨b, -, hyields⟩ := hk.geocode h
    intro hblank r hr
    obtain ⟨source, hdone⟩ := b.geocode_of_blank hblank
    rw [hdone] at hyields
    cases hyields
    cases hr
    rfl
  | submit position rows =>
    obtain ⟨b, -, hyields⟩ := hk.submit h
    exact (b.always_submit rows).of_yields hyields
  | check key => trivial
  | store key r => trivial

theorem only_carried (u : Setup) (now : Time) {c : Call} {p : Program services (collaborators.Reply c)}
    (h : u.carried now c = some p) : p.Only (u.MayAsk (Census.present c.about)) := by
  cases c with
  | geocode position a =>
    obtain ⟨b, hb, rfl⟩ := Option.map_eq_some_iff.1 h
    exact (b.only_geocode a).mono fun service hqueries => .inr ⟨b, List.mem_of_getElem? hb, hqueries⟩
  | submit position rows =>
    obtain ⟨b, hb, rfl⟩ := Option.map_eq_some_iff.1 h
    exact (b.only_submit rows).mono fun service hqueries => .inr ⟨b, List.mem_of_getElem? hb, hqueries⟩
  | check key =>
    simp only [carried] at h
    split at h
    next t _ =>
      cases h
      exact (t.only_check key).mono fun service hcache => .inl hcache
    next => cases h
  | store key r =>
    simp only [carried] at h
    split at h
    next t _ =>
      cases h
      exact (t.only_store key r now).mono fun service hcache => .inl hcache
    next => cases h

/-- Where a setup stands behind the calls, replies are sober. -/
theorem StandsBehind.expected {u : Setup} {k : Setting σ} (hk : u.StandsBehind k) {α : Type} {c c' : Config α}
    {s s' : σ} {t : List Event} (steps : Config.Steps u.engine k c s t c' s') {permits : Option Job → Call → Prop}
    {unknown : Option Job → Prop}
    (hhits : ∀ who call reply, .answered who call reply ∈ t → unknown who → ¬ IsHit call reply) :
    ∀ event ∈ t, event.Expected (soberTerms permits unknown) := by
  have hsober : ∀ event ∈ t, ∀ who call reply, event = .answered who call reply → Sober call reply := by
    refine Config.Steps.of_replies ?_ (fun event hevent who call reply h => absurd h (hevent who call reply)) steps
    rintro who call reply s s' hfinish _ _ _ ⟨⟩
    exact hk.sober hfinish
  intro event hevent
  unfold Event.Expected
  split
  next who call reply => exact ⟨hsober _ hevent who call reply rfl, hhits who call reply hevent⟩
  next => trivial

theorem exists_hit {who : Option Job} {call : Call} {reply : collaborators.Reply call} {t : List Event}
    (hevent : .answered who call reply ∈ t) (hhit : IsHit call reply) :
    ∃ key hit, .answered who (.check key) (.ok (some hit)) ∈ t := by
  cases call with
  | check key =>
    obtain ⟨hit, rfl⟩ := hhit
    exact ⟨key, hit, hevent⟩
  | _ => exact hhit.elim

theorem assures_either (u : Setup) {T : Terms} {addresses : List Address} {spared : Row → Prop}
    (hT : T.AboutRows u.engine (rowsOf (Address.assignIds addresses)) spared) {plan : Plan (List Resolution)}
    (hplan : plan ∈ [u.engine.batch addresses, u.engine.bulk addresses]) :
    plan.Assures u.engine T (Spares (rowsOf (Address.assignIds addresses)) spared) := by
  simp only [List.mem_cons, List.not_mem_nil, or_false] at hplan
  obtain rfl | rfl := hplan
  · exact assures_batch hT
  · exact assures_bulk hT

section Runs

variable {u : Setup} {k : Setting σ} {s s' : σ} {t : List Event}

/-- Calls of a run for one address are about the address. -/
theorem StandsBehind.about_of_geocode (hk : u.StandsBehind k) {a : Address} {c : Config (Except Error Resolution)}
    (steps : Config.Steps u.engine k (.ready (.ofTask (u.engine.geocode a))) s t c s') {who : Option Job} {call : Call}
    (hcall : .started who call ∈ t) : ∀ a' ∈ call.about, a' = a := by
  have hT : (soberTerms (fun _ c => ∀ a' ∈ c.about, a' = a) fun _ => False).About u.engine none a False :=
    soberTerms_about u.engine a none (fun _ hc => hc) False.elim
  have hassures : (Plan.ofTask (u.engine.geocode a)).Assures u.engine _ (NoMatch False) :=
    .ofTask (assures_resolve hT 0 none)
  exact (steps.assured hassures (hk.expected steps fun _ _ _ _ => False.elim)).1 _ hcall

/-- A blank address for which the cache has no hit is no match. -/
theorem StandsBehind.noMatch_of_geocode (hk : u.StandsBehind k) {a : Address} {r : Resolution}
    (run : (Plan.ofTask (u.engine.geocode a)).Executes u.engine k s t (.ok r) s') (hblank : a.isBlank = true)
    (hhits : ∀ key hit, .answered none (.check key) (.ok (some hit)) ∉ t) : r.matched = false := by
  have hT : (soberTerms (fun _ _ => True) (· = none)).About u.engine none a True :=
    soberTerms_about u.engine a none (fun _ _ => trivial) fun _ => ⟨hblank, rfl⟩
  have hassures : (Plan.ofTask (u.engine.geocode a)).Assures u.engine _ (NoMatch True) :=
    .ofTask (assures_resolve hT 0 none)
  refine run.assured hassures (hk.expected run ?_) trivial r rfl
  rintro who call reply hevent rfl hhit
  obtain ⟨key, hit, hevent⟩ := exists_hit hevent hhit
  exact hhits key hit hevent

/-- A run for one address fails only if it is cancelled, or if its lookup is. -/
theorem cancelled_of_geocode {e : Engine} {a : Address} {error : Error}
    (run : (Plan.ofTask (e.geocode a)).Executes e k s t (.error error) s') :
    (∃ s, k.world.fired s = true) ∨ .answered none (.check a.key) (.error .cancelled) ∈ t := by
  by_cases hfired : ∃ s, k.world.fired s = true
  · exact .inl hfired
  · have hclear : ∀ s, k.world.fired s = false := by simpa using hfired
    cases course_of_shows (run.shows hclear).ofTask with
    | cancelled => exact .inr (by simp)

variable {addresses : List Address} {plan : Plan (List Resolution)}

theorem StandsBehind.permitted_of_steps (hk : u.StandsBehind k)
    (hplan : plan ∈ [u.engine.batch addresses, u.engine.bulk addresses]) {c : Config (List Resolution)}
    (steps : Config.Steps u.engine k (.ready plan) s t c s') {who : Option Job} {call : Call}
    (hcall : .started who call ∈ t) : PermittedFor (rowsOf (Address.assignIds addresses)) who call := by
  have hT := soberTerms_aboutRows u.engine (nodup_index_rowsOf (Address.assignIds addresses)) fun _ => False
  refine (steps.assured (u.assures_either hT hplan) (hk.expected steps ?_)).1 _ hcall
  rintro who call reply - ⟨j, -, ⟨⟩⟩

/-- Blank rows for which the cache has no hit are no matches. -/
theorem StandsBehind.spares_of_executes (hk : u.StandsBehind k)
    (hplan : plan ∈ [u.engine.batch addresses, u.engine.bulk addresses]) {results : List Resolution}
    (run : plan.Executes u.engine k s t results s') :
    Spares (rowsOf (Address.assignIds addresses)) (fun row => row.address.isBlank = true ∧
      ∀ j key hit, j.row = row → .answered (some j) (.check key) (.ok (some hit)) ∉ t) results := by
  have hT := soberTerms_aboutRows u.engine (nodup_index_rowsOf (Address.assignIds addresses)) fun row =>
    ∀ j key hit, j.row = row → .answered (some j) (.check key) (.ok (some hit)) ∉ t
  refine run.assured (u.assures_either hT hplan) (hk.expected run ?_)
  rintro _ call reply hevent ⟨j, rfl, hunknown⟩ hhit
  obtain ⟨key, hit, hevent⟩ := exists_hit hevent hhit
  exact hunknown j key hit rfl hevent

end Runs

/-- A blank address reaches no backend. The two ways to tell that an address is blank agree; a call that is carried
out outside of the process asks only about those of its addresses that are not blank, if there are any; in every run
calls are about the addresses of the run; and a blank address ends as no match unless the cache has a hit for it. It
ends so in every run that comes to an end, except that a run for one address may be cancelled. -/
theorem blank_addresses_reach_no_backend (u : Setup) (k : Setting σ) (hk : u.StandsBehind k) :
    (∀ a : Address, a.oneLine = "" ↔ a.isBlank = true) ∧
    (∀ now c p, u.carried now c = some p → p.Only (u.MayAsk (Census.present c.about))) ∧
    (∀ (a : Address) (s : σ),
      (Replying k → (Plan.ofTask (u.engine.geocode a)).Ensures u.engine k s fun _ _ => True) ∧
      (∀ t c s', Config.Steps u.engine k (.ready (.ofTask (u.engine.geocode a))) s t c s' →
        ∀ who call, .started who call ∈ t → ∀ a' ∈ call.about, a' = a) ∧
      ∀ t o s', (Plan.ofTask (u.engine.geocode a)).Executes u.engine k s t o s' → a.isBlank = true →
        (∀ key hit, .answered none (.check key) (.ok (some hit)) ∉ t) →
        (∃ r, o = .ok r ∧ r.matched = false) ∨
          (∃ s, k.world.fired s = true) ∨ .answered none (.check a.key) (.error .cancelled) ∈ t) ∧
    ∀ (addresses : List Address), ∀ plan ∈ [u.engine.batch addresses, u.engine.bulk addresses], ∀ s : σ,
      (Replying k → plan.Ensures u.engine k s fun _ _ => True) ∧
      (∀ t c s', Config.Steps u.engine k (.ready plan) s t c s' →
        ∀ who call, .started who call ∈ t → PermittedFor (rowsOf (Address.assignIds addresses)) who call) ∧
      ∀ t results s', plan.Executes u.engine k s t results s' →
        Spares (rowsOf (Address.assignIds addresses)) (fun row => row.address.isBlank = true ∧
          ∀ j key hit, j.row = row → .answered (some j) (.check key) (.ok (some hit)) ∉ t) results := by
  refine ⟨fun a => Address.oneLine_eq_empty_iff, fun now c p h => u.only_carried now h, fun a s =>
    ⟨fun hreplying => hreplying.ensures _ s, fun t c s' steps who call hcall => hk.about_of_geocode steps hcall, ?_⟩,
    fun addresses plan hplan s => ⟨fun hreplying => hreplying.ensures _ s,
      fun t c s' steps who call hcall => hk.permitted_of_steps hplan steps hcall,
      fun t results s' run => hk.spares_of_executes hplan run⟩⟩
  intro t o s' run hblank hhits
  cases o with
  | error error => exact .inr (cancelled_of_geocode run)
  | ok r => exact .inl ⟨r, rfl, hk.noMatch_of_geocode run hblank hhits⟩

namespace Sample

/-- All backends, without a cache. -/
def everyone : Setup where
  backends := [.tiger { maxRating := 20 }, .census ⟨"", "", ""⟩ true, .google ⟨"", "key"⟩]
  store := .none
  concurrency := 2
  chunkSize := 10

/-- Services of which one answers: to a batch it replies that the second row is a match. -/
def babble : World services Unit :=
  World.immediate (fun _ => false) fun c s => match c with
    | .request (.post ..) =>
      (some (.ok { body := Text.encode "\"1\",\"\",\"Match\",\"Exact\",\"\",\"-77.0,38.9\"\n" }), s)
    | .request (.get ..) => (some (.error (.http "")), s)
    | .statement _ => (some (.error (.database "")), s)

/-- The collaborators with these services. -/
def babbling : Setting (State Unit) where
  world := everyone.world babble fun _ => 0
  drift := Eq

end Sample

/-- A blank address in a batch with another one; the service makes a match of it, and nobody else answers. -/
theorem blank_addresses_reach_no_backend_babble :
    Sample.everyone.StandsBehind Sample.babbling ∧
    ∃ t s' r, (Sample.everyone.engine.bulk [Engine.Sample.home, {}]).Executes Sample.everyone.engine Sample.babbling
      ⟨Sample.everyone.memory, ()⟩ t [.unmatched "google", r] s' ∧ r.matched = false := by
  have hk : Sample.everyone.StandsBehind Sample.babbling := standsBehind_world ..
  have hrun : ((Sample.everyone.engine.bulk [Engine.Sample.home, {}]).run Sample.everyone.engine
      Sample.babbling.world ⟨Sample.everyone.memory, ()⟩).1 = some [.unmatched "google", .unmatched "google"] := by
    decide +kernel
  obtain ⟨t, run⟩ := (Plan.executes_of_run _ (Prod.ext hrun rfl)).1
  -- There is no cache, so no lookup has a hit.
  have hmiss : ∀ event ∈ t, ∀ who key hit, event ≠ .answered who (.check key) (.ok (some hit)) := by
    refine Config.Steps.of_replies ?_ (fun event hevent who key hit => hevent who _ _) run
    rintro who c reply s s' hfinish who' key hit ⟨⟩
    cases hfinish
  obtain ⟨-, hslots⟩ := ((blank_addresses_reach_no_backend Sample.everyone Sample.babbling hk).2.2.2
    [Engine.Sample.home, {}] _ (by simp) ⟨Sample.everyone.memory, ()⟩).2.2 t _ _ run
  obtain ⟨r, hr, hunmatched⟩ := hslots ⟨1, { id := "1" }⟩ (by decide) ⟨by decide, fun j key hit _ hevent =>
    hmiss _ hevent _ key hit rfl⟩
  obtain rfl := Option.some.inj hr
  exact ⟨hk, t, _, _, run, hunmatched⟩

end Setup

end Geocoding
