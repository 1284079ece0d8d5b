import Geocoding.Cache.Memory
import Geocoding.Proofs.Cascade
import Geocoding.Proofs.Steady.Memory

/-!
# Resolving addresses again and again

One engine resolves addresses one after the other, behind a cache in memory whose entries grow too old after
some days. Providers may answer every call differently. What the cache holds under a key is then what the last
cascade for that key has come to, with the time of it, and this decides alone how the next call for the key
fares: hits write nothing, so they leave the age of an entry as it is, and calls for other keys leave the entry
itself as it is.
-/

namespace Geocoding.Engine

variable {π : Type}

/-- How providers answer, which may depend on all that they were asked before. -/
abbrev Providing (π : Type) : Type :=
  Nat → Address → π → Except Error Resolution × π

/-- The collaborators of an engine: the cache in memory, the clock, and the providers, with the calls made to
them. -/
structure Desk (π : Type) where
  memory : Cache.Memory
  now : Time
  providers : π
  calls : List Call := []

namespace Desk

/-- A call is on record. -/
def record (d : Desk π) (c : Call) : Desk π :=
  { d with calls := d.calls ++ [c] }

/-- The cache has kept a resolution. -/
def kept (d : Desk π) (key : String) (r : Resolution) : Desk π :=
  { d with memory := d.memory.store key r d.now }

/-- The token never fires, calls take no time, and all of them are on record. Nothing is submitted here. -/
def world (answer : Providing π) : World collaborators (Desk π) :=
  World.immediate (fun _ => false) fun c d => match c with
    | .geocode position a =>
      (some (answer position a d.providers).1,
        { d.record (.geocode position a) with providers := (answer position a d.providers).2 })
    | .submit position rows => (some (.ok Answers.empty), d.record (.submit position rows))
    | .check key => (some (.ok (d.memory.check key d.now)), d.record (.check key))
    | .store key r => (some (.ok ()), (d.kept key r).record (.store key r))

end Desk

/-- One call of an engine: when it was made, how the collaborators stood before and after it, and what it came
to. The calls on record after it are its own. -/
structure Visit (π : Type) where
  time : Time
  address : Address
  before : Desk π
  outcome : Option (Except Error Resolution)
  after : Desk π

/-- The cache key of the address. -/
def Visit.key (v : Visit π) : String :=
  v.address.key

/-- Resolve an address at some time. -/
def visit (e : Engine) (answer : Providing π) (time : Time) (a : Address) (d : Desk π) : Visit π :=
  let before := { d with now := time, calls := [] }
  let (outcome, after) := (e.geocode a).run (Desk.world answer) before
  { time, address := a, before, outcome, after }

/-- Resolve addresses one after the other, each at its time. -/
def visits (e : Engine) (answer : Providing π) : List (Time × Address) → Desk π → List (Visit π)
  | [], _ => []
  | (time, a) :: rest, d =>
    let v := e.visit answer time a d
    v :: e.visits answer rest v.after

namespace Visit

/-- The call ran the cascade: it did more than look its key up. -/
def ranCascade (v : Visit π) : Bool :=
  v.after.calls != [.check v.key]

/-- The call ran the cascade once, between looking its key up and keeping what came of it, and asked nobody but
the providers about the address. The entry under its key is replaced, those under other keys stand. -/
structure Resolved (e : Engine) (answer : Providing π) (v : Visit π) (r : Resolution) : Prop where
  cascade : ∃ d, (e.cascade v.address 0 e.providers.length none).run (Desk.world answer)
      (v.before.record (.check v.key)) = (some (.ok r), d) ∧
    (∃ asked, d.calls = .check v.key :: asked ∧ ∀ c ∈ asked, ∃ position, c = .geocode position v.address) ∧
    v.after = (d.kept v.key r).record (.store v.key r)
  outcome : v.outcome = some (.ok r)
  entry : v.after.memory.find? v.key = some (.ofResolution v.key r v.time)
  others : ∀ key, key ≠ v.key → v.after.memory.find? key = v.before.memory.find? key

/-- The call came to what an earlier one had come to. It looked its key up and did nothing else: no provider was
asked, and the cache is as it was. -/
structure Repeats (v earlier : Visit π) : Prop where
  outcome : ∃ r, earlier.outcome = some (.ok r) ∧ v.outcome = some (.ok r)
  after : v.after = v.before.record (.check v.key)
  calls : v.after.calls = [.check v.key]

end Visit

/-- The latest of some calls that ran the cascade for a key. -/
def latest (key : String) (earlier : List (Visit π)) : Option (Visit π) :=
  earlier.reverse.find? fun v => v.key = key && v.ranCascade

/-- A call repeats the latest one that ran the cascade for its key, if there is one and it is not too long ago;
otherwise it runs the cascade itself. -/
def Visit.Follows (e : Engine) (answer : Providing π) (ttlDays : Nat) (earlier : List (Visit π)) (v : Visit π) :
    Prop :=
  match latest v.key earlier with
  | some s => if ttlDays = 0 ∨ v.time - s.time < ttlDays * Time.day then v.Repeats s
    else ∃ r, v.Resolved e answer r
  | none => ∃ r, v.Resolved e answer r

/-! ## Runs of one call -/

section Run

variable {e : Engine} {answer : Providing π}

theorem run_lookup (he : e.caching = true) (key : String) (d : Desk π) :
    (e.lookup key).run (Desk.world answer) d = (some (.ok (d.memory.check key d.now)), d.record (.check key)) := by
  unfold lookup
  rw [if_pos he]
  rfl

theorem run_keep (he : e.caching = true) (key : String) (r : Resolution) (d : Desk π) :
    (e.keep key r).run (Desk.world answer) d = (some (), (d.kept key r).record (.store key r)) := by
  unfold keep
  rw [if_pos he]
  rfl

theorem run_askAll_unavailable {p : Provider} (hp : p.available = false) (a : Address) (position : Nat)
    (rest : List (Provider × Nat)) (last : Option String) (d : Desk π) :
    (askAll a ((p, position) :: rest) last).run (Desk.world answer) d =
      (askAll a rest last).run (Desk.world answer) d := by
  rw [askAll]
  simp only [hp]
  rfl

theorem run_askAll_available {p : Provider} (hp : p.available = true) (a : Address) (position : Nat)
    (rest : List (Provider × Nat)) (last : Option String) (d : Desk π) :
    (askAll a ((p, position) :: rest) last).run (Desk.world answer) d =
      Program.run (Desk.world answer)
        (match (answer position a d.providers).1 with
          | .ok r => if r.matched then Program.done (.ok r) else askAll a rest (some p.name)
          | .error error => askAll a rest (if error.isNotConfigured then last else some p.name))
        { d.record (.geocode position a) with providers := (answer position a d.providers).2 } := by
  have hanswer : (Desk.world answer).answer (.geocode position a) d =
      (some (answer position a d.providers).1,
        { d.record (.geocode position a) with providers := (answer position a d.providers).2 }) := rfl
  have hclear : (Desk.world answer).fired d = false := rfl
  rw [askAll]
  simp only [Program.fired, Program.pure_eq_done, hp, Bool.not_true, Bool.false_eq_true, ↓reduceIte,
    Program.guarded, Program.bind_eq_bind, Program.bind, Program.run, hclear, hanswer]
  cases (answer position a d.providers).1 <;> rfl

/-- Asking providers comes to a resolution that can be kept, and touches nothing but them. -/
theorem run_askAll (answer : Providing π) (a : Address) (providers : List (Provider × Nat)) (last : Option String)
    (d : Desk π) :
    ∃ r asked p, (askAll a providers last).run (Desk.world answer) d =
        (some (.ok r), { d with providers := p, calls := d.calls ++ asked }) ∧
      r.Keepable ∧ ∀ c ∈ asked, ∃ position, c = .geocode position a := by
  induction providers generalizing last d with
  | nil => exact ⟨_, [], d.providers, by rw [List.append_nil]; rfl, Resolution.keepable_unmatched _, by simp⟩
  | cons provider rest ih =>
    obtain ⟨p, position⟩ := provider
    cases hp : p.available with
    | false =>
      rw [run_askAll_unavailable hp]
      exact ih last d
    | true =>
      rw [run_askAll_available hp]
      generalize (answer position a d.providers).2 = ps
      -- The call is put on record, and those to the other providers follow behind it.
      have hlater : ∀ last', ∃ r asked p, (askAll a rest last').run (Desk.world answer)
            { d.record (.geocode position a) with providers := ps } =
          (some (.ok r), { d with providers := p, calls := d.calls ++ asked }) ∧
            r.Keepable ∧ ∀ c ∈ asked, ∃ position, c = .geocode position a := by
        intro last'
        obtain ⟨r, asked, ps', hrun, hkeep, hasked⟩ := ih last' { d.record (.geocode position a) with providers := ps }
        refine ⟨r, .geocode position a :: asked, ps', ?_, hkeep, ?_⟩
        · rw [hrun]
          simp [Desk.record]
        · exact List.forall_mem_cons.2 ⟨⟨position, rfl⟩, hasked⟩
      cases (answer position a d.providers).1 with
      | error error => exact hlater _
      | ok r =>
        simp only
        split
        next hmatched =>
          exact ⟨r, [.geocode position a], ps, rfl, Resolution.keepable_of_matched hmatched, by simp⟩
        next => exact hlater _

/-- What the cache knows is the outcome of a call. -/
theorem run_geocode_of_hit (he : e.caching = true) (answer : Providing π) {a : Address} {d : Desk π} {r : Resolution}
    (h : d.memory.check a.key d.now = some r) :
    (e.geocode a).run (Desk.world answer) d = (some (.ok r), d.record (.check a.key)) := by
  change Program.run _ ((e.lookup a.key).bind _) d = _
  rw [Program.run_bind, run_lookup he, h]
  rfl

/-- What the cache does not know is found out by the cascade, and kept. -/
theorem run_geocode_of_miss (he : e.caching = true) {a : Address} {d d' : Desk π} {r : Resolution}
    (h : d.memory.check a.key d.now = none)
    (hcascade : (e.cascade a 0 e.providers.length none).run (Desk.world answer) (d.record (.check a.key)) =
      (some (.ok r), d')) :
    (e.geocode a).run (Desk.world answer) d = (some (.ok r), (d'.kept a.key r).record (.store a.key r)) := by
  change Program.run _ ((e.lookup a.key).bind _) d = _
  rw [Program.run_bind, run_lookup he, h]
  change Program.run _ ((e.cascade a 0 e.providers.length none).bind _) _ = _
  rw [Program.run_bind, hcascade]
  change Program.run _ ((e.keep a.key r).bind _) _ = _
  rw [Program.run_bind, run_keep he]
  rfl

end Run

/-! ## Many calls -/

theorem latest_snoc (key : String) (earlier : List (Visit π)) (v : Visit π) :
    latest key (earlier ++ [v]) = if v.key = key && v.ranCascade then some v else latest key earlier := by
  simp only [latest, List.reverse_append, List.reverse_singleton, List.singleton_append, List.find?_cons]
  cases decide (v.key = key) && v.ranCascade <;> rfl

theorem Visit.Resolved.ranCascade {e : Engine} {answer : Providing π} {v : Visit π} {r : Resolution}
    (h : v.Resolved e answer r) : v.ranCascade = true := by
  obtain ⟨d, -, ⟨asked, hasked, -⟩, hafter⟩ := h.cascade
  rw [Visit.ranCascade, hafter]
  simp [Desk.record, Desk.kept, hasked]

theorem Visit.Repeats.not_ranCascade {v earlier : Visit π} (h : v.Repeats earlier) : v.ranCascade = false := by
  rw [Visit.ranCascade, h.calls, bne_self_eq_false]

theorem Visit.Follows.repeats {e : Engine} {answer : Providing π} {ttlDays : Nat} {earlier : List (Visit π)}
    {v s : Visit π} (h : v.Follows e answer ttlDays earlier) (hs : latest v.key earlier = some s)
    (hage : ttlDays = 0 ∨ v.time - s.time < ttlDays * Time.day) : v.Repeats s := by
  rw [Visit.Follows, hs] at h
  exact (if_pos hage).mp h

theorem Visit.Follows.resolved {e : Engine} {answer : Providing π} {ttlDays : Nat} {earlier : List (Visit π)}
    {v s : Visit π} (h : v.Follows e answer ttlDays earlier) (hs : latest v.key earlier = some s)
    (hage : ¬(ttlDays = 0 ∨ v.time - s.time < ttlDays * Time.day)) : ∃ r, v.Resolved e answer r := by
  rw [Visit.Follows, hs] at h
  exact (if_neg hage).mp h

/-- The cache holds under every key what the latest call that ran the cascade for it has come to. -/
structure Keeps (ttlDays : Nat) (earlier : List (Visit π)) (memory : Cache.Memory) : Prop where
  lifetime : memory.ttlDays = ttlDays
  unknown : ∀ key, latest key earlier = none → memory.find? key = none
  known : ∀ key s, latest key earlier = some s → ∃ r : Resolution, r.Keepable ∧ s.outcome = some (.ok r) ∧
    memory.find? key = some (.ofResolution key r s.time)

theorem keeps_empty (ttlDays : Nat) : Keeps (π := π) ttlDays [] { ttlDays } where
  lifetime := rfl
  unknown _ _ := rfl
  known _ _ h := by cases h

section Visits

variable {e : Engine} {answer : Providing π} {ttlDays : Nat} {earlier : List (Visit π)} {d : Desk π} {time : Time}
  {a : Address}

/-- A call whose key is not known, or no longer, runs the cascade. -/
theorem resolved_of_miss (he : e.caching = true) (answer : Providing π) (h : d.memory.check a.key time = none) :
    ∃ r : Resolution, r.Keepable ∧ (e.visit answer time a d).Resolved e answer r ∧
      (e.visit answer time a d).after.memory.ttlDays = d.memory.ttlDays := by
  obtain ⟨r, asked, p, hcascade, hkeepable, hasked⟩ := run_askAll answer a (e.span 0 e.providers.length) none
    (Desk.record { d with now := time, calls := [] } (.check a.key))
  have hrun := run_geocode_of_miss (d := { d with now := time, calls := [] }) he h hcascade
  have hafter : (e.visit answer time a d).after = _ := congrArg Prod.snd hrun
  refine ⟨r, hkeepable, ⟨⟨_, hcascade, ⟨asked, rfl, hasked⟩, hafter⟩, congrArg Prod.fst hrun, ?_, ?_⟩, ?_⟩
  · rw [hafter]
    exact Cache.Memory.find?_insert_self d.memory (.ofResolution a.key r time)
  · intro key hkey
    rw [hafter]
    exact Cache.Memory.find?_insert_of_ne d.memory hkey
  · rw [hafter]
    rfl

/-- A call whose key is known looks it up, and that is all. -/
theorem visit_of_hit (he : e.caching = true) (answer : Providing π) {r : Resolution}
    (h : d.memory.check a.key time = some r) :
    (e.visit answer time a d).outcome = some (.ok r) ∧
      (e.visit answer time a d).after = (e.visit answer time a d).before.record (.check a.key) := by
  have hrun := run_geocode_of_hit (d := { d with now := time, calls := [] }) he answer h
  exact ⟨congrArg Prod.fst hrun, congrArg Prod.snd hrun⟩

/-- What the cache tells about a key at some time is what the latest call that ran the cascade for it has come
to, unless that is too long ago. -/
theorem Keeps.check (h : Keeps ttlDays earlier d.memory) {key : String} {s : Visit π}
    (hs : latest key earlier = some s) (time : Time) :
    ∃ r, s.outcome = some (.ok r) ∧ d.memory.check key time =
      if ttlDays = 0 ∨ time - s.time < ttlDays * Time.day then some r else none := by
  obtain ⟨r, hkeepable, houtcome, hentry⟩ := h.known key s hs
  refine ⟨r, houtcome, ?_⟩
  have hfresh : (Cache.Entry.ofResolution key r s.time).isFresh ttlDays time =
      decide (ttlDays = 0 ∨ time - s.time < ttlDays * Time.day) := by
    rw [Bool.decide_or]
    rfl
  rw [Cache.Memory.check, hentry, h.lifetime, Option.filter_some, hfresh]
  by_cases hage : ttlDays = 0 ∨ time - s.time < ttlDays * Time.day
  · simp [hage, Cache.Entry.toResolution_ofResolution hkeepable]
  · simp [hage]

theorem Keeps.resolved (h : Keeps ttlDays earlier d.memory) {r : Resolution} (hkeepable : r.Keepable)
    (hv : (e.visit answer time a d).Resolved e answer r)
    (httl : (e.visit answer time a d).after.memory.ttlDays = d.memory.ttlDays) :
    Keeps ttlDays (earlier ++ [e.visit answer time a d]) (e.visit answer time a d).after.memory := by
  -- The call is now the latest for its own key, and makes no difference to others.
  have hlatest : ∀ key, latest key (earlier ++ [e.visit answer time a d]) =
      if a.key = key then some (e.visit answer time a d) else latest key earlier := by
    intro key
    rw [latest_snoc, hv.ranCascade, Bool.and_true]
    simp only [decide_eq_true_eq]
    rfl
  constructor
  case lifetime => rw [httl, h.lifetime]
  case unknown =>
    intro key hnone
    rw [hlatest] at hnone
    split at hnone
    · cases hnone
    next hkey => exact (hv.others key (Ne.symm hkey)).trans (h.unknown key hnone)
  case known =>
    intro key s hs
    rw [hlatest] at hs
    split at hs
    next hkey =>
      cases hs
      subst hkey
      exact ⟨r, hkeepable, hv.outcome, hv.entry⟩
    next hkey =>
      obtain ⟨r', hr', houtcome, hentry⟩ := h.known key s hs
      exact ⟨r', hr', houtcome, (hv.others key (Ne.symm hkey)).trans hentry⟩

theorem Keeps.repeats (h : Keeps ttlDays earlier d.memory) {s : Visit π}
    (hv : (e.visit answer time a d).Repeats s) :
    Keeps ttlDays (earlier ++ [e.visit answer time a d]) (e.visit answer time a d).after.memory := by
  have hlatest : ∀ key, latest key (earlier ++ [e.visit answer time a d]) = latest key earlier := by
    intro key
    rw [latest_snoc, hv.not_ranCascade, Bool.and_false]
    rfl
  have hmemory : (e.visit answer time a d).after.memory = d.memory := by
    rw [hv.after]
    rfl
  rw [hmemory]
  constructor
  case lifetime => exact h.lifetime
  case unknown => exact fun key hnone => h.unknown key (hlatest key ▸ hnone)
  case known => exact fun key s hs => h.known key s (hlatest key ▸ hs)

/-- Every call follows those before it, and the cache keeps up with it. -/
theorem visit_follows (he : e.caching = true) (h : Keeps ttlDays earlier d.memory) (answer : Providing π)
    (time : Time) (a : Address) :
    (e.visit answer time a d).Follows e answer ttlDays earlier ∧
      Keeps ttlDays (earlier ++ [e.visit answer time a d]) (e.visit answer time a d).after.memory := by
  have hmiss : d.memory.check a.key time = none → (∃ r, (e.visit answer time a d).Resolved e answer r) ∧
      Keeps ttlDays (earlier ++ [e.visit answer time a d]) (e.visit answer time a d).after.memory := by
    intro hnone
    obtain ⟨r, hkeepable, hresolved, httl⟩ := resolved_of_miss he answer hnone
    exact ⟨⟨r, hresolved⟩, h.resolved hkeepable hresolved httl⟩
  unfold Visit.Follows
  change (match latest a.key earlier with
    | some s => if ttlDays = 0 ∨ time - s.time < ttlDays * Time.day then _ else _
    | none => _) ∧ _
  cases hlatest : latest a.key earlier with
  | none =>
    apply hmiss
    rw [Cache.Memory.check, h.unknown _ hlatest]
    rfl
  | some s =>
    obtain ⟨r, houtcome, hcheck⟩ := h.check hlatest time
    simp only
    split
    next hage =>
      rw [if_pos hage] at hcheck
      obtain ⟨hsame, hafter⟩ := visit_of_hit he answer hcheck
      have hrepeats : (e.visit answer time a d).Repeats s := ⟨⟨r, houtcome, hsame⟩, hafter, by rw [hafter]; rfl⟩
      exact ⟨hrepeats, h.repeats hrepeats⟩
    next hage =>
      rw [if_neg hage] at hcheck
      exact hmiss hcheck

end Visits

/-- Every call of a run follows those before it. -/
def Consistent (e : Engine) (answer : Providing π) (ttlDays : Nat) (run : List (Visit π)) : Prop :=
  ∀ earlier v later, run = earlier ++ v :: later → v.Follows e answer ttlDays earlier

theorem visits_follow {e : Engine} {answer : Providing π} {ttlDays : Nat} (he : e.caching = true)
    (requests : List (Time × Address)) {before : List (Visit π)} {d : Desk π} (h : Keeps ttlDays before d.memory) :
    ∀ earlier v later, e.visits answer requests d = earlier ++ v :: later →
      v.Follows e answer ttlDays (before ++ earlier) := by
  induction requests generalizing before d with
  | nil => intro earlier v later hrun; simp [visits] at hrun
  | cons request requests ih =>
    obtain ⟨time, a⟩ := request
    intro earlier v later hrun
    obtain ⟨hfollows, hkeeps⟩ := visit_follows he h answer time a
    cases earlier with
    | nil =>
      obtain ⟨rfl, -⟩ := List.cons.inj hrun
      rwa [List.append_nil]
    | cons w earlier =>
      obtain ⟨rfl, hrest⟩ := List.cons.inj hrun
      have hlater := ih hkeeps earlier v later hrest
      rwa [List.append_assoc] at hlater

/-- Whatever its providers answer, and at whatever times it is called: a call of an engine with an empty cache
in memory at first repeats the latest call that ran the cascade for its key, if there is one and it is not too
long ago, and otherwise runs the cascade. -/
theorem repeated_calls {e : Engine} (he : e.caching = true) (answer : Providing π) (ttlDays : Nat)
    (requests : List (Time × Address)) (now : Time) (providers : π) :
    Consistent e answer ttlDays (e.visits answer requests { memory := { ttlDays }, now, providers }) :=
  fun earlier v later hrun => visits_follow he requests (keeps_empty ttlDays) earlier v later hrun

namespace Sample

/-- The providers of the sample, which count how often they are asked. -/
def counting : Providing Nat :=
  fun position a asked => (answer position a, asked + 1)

/-- Three calls for one address: an hour before the day is over, and when it is. -/
def requests : List (Time × Address) :=
  [(0, home), (Time.day - 3600 * Time.second, home), (Time.day, home)]

end Sample

/-- An entry of one day is not too old at the second call, which repeats the first, but it is at the third, although
the second had a hit in between. -/
theorem repeated_calls_within_a_day : Sample.engine.caching = true ∧ ∃ first second third,
    Sample.engine.visits Sample.counting Sample.requests { memory := { ttlDays := 1 }, now := 0, providers := 0 } =
        [first, second, third] ∧
      second.Repeats first ∧ ∃ r, third.Resolved Sample.engine Sample.counting r := by
  have hrun := repeated_calls (e := Sample.engine) rfl Sample.counting 1 Sample.requests 0 0
  obtain ⟨first, second, third, hvisits, hkeys, htimes⟩ : ∃ first second third,
      Sample.engine.visits Sample.counting Sample.requests { memory := { ttlDays := 1 }, now := 0, providers := 0 } =
        [first, second, third] ∧
      (first.key = Sample.home.key ∧ second.key = Sample.home.key ∧ third.key = Sample.home.key) ∧
      first.time = 0 ∧ second.time = Time.day - 3600 * Time.second ∧ third.time = Time.day :=
    ⟨_, _, _, rfl, ⟨rfl, rfl, rfl⟩, rfl, rfl, rfl⟩
  rw [hvisits] at hrun
  obtain ⟨_, hfirst⟩ := hrun [] first _ rfl
  have hlatest : latest Sample.home.key [first] = some first :=
    (latest_snoc _ [] first).trans (by simp [hkeys.1, hfirst.ranCascade])
  have hsecond := (hrun [first] second _ rfl).repeats (hkeys.2.1 ▸ hlatest) (by rw [htimes.1, htimes.2.1]; decide)
  have hlatest' : latest Sample.home.key [first, second] = some first :=
    (latest_snoc _ [first] second).trans (by simp [hsecond.not_ranCascade, hlatest])
  exact ⟨rfl, first, second, third, hvisits, hsecond,
    (hrun [first, second] third _ rfl).resolved (hkeys.2.2 ▸ hlatest') (by rw [htimes.1, htimes.2.2]; decide)⟩

end Geocoding.Engine
