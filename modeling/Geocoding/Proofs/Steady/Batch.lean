import Geocoding.Proofs.Rows
import Geocoding.Proofs.Steady.Memory
import Geocoding.Proofs.Interleaving.Completion

/-!
# Batches with steady collaborators

A batch has the same outcome in every order of steps: the one that each of its addresses has on its own.
Jobs may share a key; then one may find in the cache what another has stored there, and that is no other
resolution than the one it would have come to itself.
-/

namespace Geocoding.Engine

variable {α σ : Type} {e : Engine} {k : Setting σ}

/-! ## Pools -/

/-- A job has come to its outcome, with a postcondition, or was cut short by the token. -/
def ComesTo (k : Setting σ) (r : Option Resolution) (P : σ → Prop) (outcome : Outcome) (s : σ) : Prop :=
  outcome = .ok r ∧ P s ∨ k.world.fired s = true ∧ outcome = .error .cancelled

section Pool

variable {R R' : Promise k} {Q : α → σ → Prop} {s : σ} {jobs : List Job} {P : Job → σ → Prop}

/-- A pool brings the outcomes of all of its jobs, unless it belongs to workers and the token fires. -/
theorem Plan.wp.pool {crew : Crew} {f : List (Row × Outcome) → Plan α} {r : Job → Option Resolution}
    (hR : R'.Implies R) (hjobs : ∀ j ∈ jobs, Engine.wp R' (ComesTo k (r j) (P j)) (e.task j) s)
    (hnext : ∀ results s', R'.holds s s' →
      (∀ w ∈ results, ∃ j ∈ jobs, w.1 = j.row ∧ ComesTo k (r j) (P j) w.2 s') →
      (crew = .itself ∨ k.world.fired s' = false →
        ∀ j ∈ jobs, ∃ outcome, (j.row, outcome) ∈ results ∧ ComesTo k (r j) (P j) outcome s') →
      (f results).wp e R Q s') :
    (Plan.pool crew jobs f).wp e R Q s := by
  refine ⟨R', hR, fun j => ComesTo k (r j) (P j), hjobs, ?_⟩
  intro results s' hs hbrought
  -- What was brought is a permutation of all jobs, or of a part of them if workers saw the token.
  obtain ⟨ended, rfl, hspec, hsub, hperm⟩ := hbrought
  apply hnext _ s' hs
  · intro w hw
    obtain ⟨d, hd, rfl⟩ := List.mem_map.1 hw
    exact ⟨d.1, hsub.subset (List.mem_map_of_mem hd), rfl, hspec d hd⟩
  · intro hall j hj
    obtain ⟨d, hd, rfl⟩ := List.mem_map.1 ((hperm hall).mem_iff.2 hj)
    exact ⟨d.2, List.mem_map.2 ⟨d, hd, rfl⟩, hspec d hd⟩

/-- Workers bring the resolutions of all jobs, unless the token fires. -/
theorem Plan.wp.finish {f : List (Row × Resolution) → Plan α} {r : Job → Resolution}
    (hR : R'.Implies R) (hjobs : ∀ j ∈ jobs, Engine.wp R' (ComesTo k (some (r j)) (P j)) (e.task j) s)
    (hnext : ∀ results s', R'.holds s s' →
      (∀ w ∈ results, ∃ j ∈ jobs, w = (j.row, r j)) →
      (k.world.fired s' = false → ∀ j ∈ jobs, (j.row, r j) ∈ results ∧ P j s') →
      (f results).wp e R Q s') :
    ((Plan.finish jobs).bind f).wp e R Q s := by
  refine Plan.wp.pool hR hjobs fun results s' hs hsome hall => hnext _ s' hs ?_ ?_
  · rintro ⟨row, r'⟩ hw
    obtain ⟨j, hj, rfl, hcomes⟩ := hsome _ (mem_resolved.1 hw)
    rcases hcomes with ⟨heq, -⟩ | ⟨-, heq⟩
    · cases heq
      exact ⟨j, hj, rfl⟩
    · cases heq
  · intro hclear j hj
    obtain ⟨outcome, hmem, hcomes⟩ := hall (.inr hclear) j hj
    rcases hcomes with ⟨rfl, hP⟩ | ⟨hfired, -⟩
    · exact ⟨mem_resolved.2 hmem, hP⟩
    · rw [hclear] at hfired
      cases hfired

end Pool

/-! ## Rows -/

/-- The target of a key is the value of a row that has it, if there is a cache to keep it in. -/
def targetOf (e : Engine) (value : Row → Resolution) (rows : List Row) (key : String) : Option Resolution :=
  if e.caching then (rows.find? fun row => row.key == key).map value else none

/-- Rows with the same key have the same value. -/
def Agree (value : Row → Resolution) (rows : List Row) : Prop :=
  ∀ row ∈ rows, ∀ row' ∈ rows, row.key = row'.key → value row = value row'

theorem Agree.of_nodup {value : Row → Resolution} {rows : List Row} (h : (rows.map Row.key).Nodup) :
    Agree value rows := fun row hrow row' hrow' heq => by
  rw [List.inj_on_of_nodup_map h hrow hrow' heq]

theorem targetOf_eq_none {value : Row → Resolution} {rows : List Row} {key : String}
    (h : e.caching = true → ∀ row ∈ rows, row.key ≠ key) : e.targetOf value rows key = none := by
  unfold targetOf
  split
  next hcaching =>
    rw [List.find?_eq_none.2 (by simpa using h hcaching)]
    rfl
  next => rfl

theorem targetOf_eq_some {value : Row → Resolution} {rows : List Row} (hagree : Agree value rows) {row : Row}
    (hrow : row ∈ rows) (hcaching : e.caching = true) :
    e.targetOf value rows row.key = some (value row) := by
  obtain ⟨row', hfind⟩ : ∃ row', rows.find? (fun r => r.key == row.key) = some row' :=
    Option.isSome_iff_exists.1 (List.find?_isSome.2 ⟨row, hrow, by simp⟩)
  have hkey : row'.key = row.key := by simpa using List.find?_some hfind
  rw [targetOf, if_pos hcaching, hfind, Option.map_some,
    hagree row' (List.mem_of_find?_eq_some hfind) row hrow hkey]

theorem targetOf_some {value : Row → Resolution} {rows : List Row} {key : String} {r : Resolution}
    (h : e.targetOf value rows key = some r) :
    e.caching = true ∧ ∃ row ∈ rows, row.key = key ∧ value row = r := by
  unfold targetOf at h
  split at h
  next hcaching =>
    obtain ⟨row, hfind, rfl⟩ := Option.map_eq_some_iff.1 h
    exact ⟨hcaching, row, List.mem_of_find?_eq_some hfind, by simpa using List.find?_some hfind, rfl⟩
  next => cases h

/-- A resolution that is the target of its key has been kept, unless the token has fired. -/
def Kept (e : Engine) (k : Setting σ) (m : Conduct σ) (target : String → Option Resolution) (key : String)
    (r : Resolution) (s : σ) : Prop :=
  e.caching = true → target key = some r → k.world.fired s = false → m.Holds key r s

/-- Nothing wrong has been written for rows; and everything has been written, and kept where it is a target,
unless the token has fired. -/
structure Written (e : Engine) (k : Setting σ) (m : Conduct σ) (target : String → Option Resolution)
    (value : Row → Resolution) (rows : List Row) (writes : List (Row × Resolution)) (s : σ) : Prop where
  right : Right rows value writes
  all : k.world.fired s = false → ∀ row ∈ rows,
    (row, value row) ∈ writes ∧ e.Kept k m target row.key (value row) s

section Steady

variable {m : Conduct σ} (h : Steady e k m) {target : String → Option Resolution} {s : σ}

theorem Kept.later {key : String} {r : Resolution} {s' : σ} (hkept : e.Kept k m target key r s)
    (hs : (h.promise target).holds s s') : e.Kept k m target key r s' :=
  fun hcaching htarget hclear =>
    Steady.holds_later hs htarget (hkept hcaching htarget (Steady.lasts_false hs hclear))

theorem Written.later {value : Row → Resolution} {rows : List Row} {writes : List (Row × Resolution)}
    {s' : σ} (hwritten : e.Written k m target value rows writes s) (hs : (h.promise target).holds s s') :
    e.Written k m target value rows writes s' where
  right := hwritten.right
  all hclear row hrow :=
    have hrow := hwritten.all (Steady.lasts_false hs hclear) row hrow
    ⟨hrow.1, Kept.later h hrow.2 hs⟩

/-- Once the token has fired, it is enough that nothing wrong has been written. -/
theorem Written.of_fired {value : Row → Resolution} {rows : List Row} {writes : List (Row × Resolution)}
    (hright : Right rows value writes) (hfired : k.world.fired s = true) :
    e.Written k m target value rows writes s where
  right := hright
  all hclear := by
    rw [hfired] at hclear
    cases hclear

/-- What is written for the rows that are left completes what was written and kept before. -/
theorem Written.completes {value : Row → Resolution} {rows rest : List Row} {ws writes : List (Row × Resolution)}
    (hws : Right rows value ws) (hrest : e.Written k m target value rest writes s) (hsub : rest ⊆ rows)
    (hall : ∀ row ∈ rows, row ∈ rest ∨
      (row, value row) ∈ ws ∧ e.Kept k m target row.key (value row) s) :
    e.Written k m target value rows (ws ++ writes) s where
  right := hws.append (hrest.right.mono hsub)
  all hclear row hrow := by
    rcases hall row hrow with hleft | ⟨hwrite, hkept⟩
    · obtain ⟨hwrite, hkept⟩ := hrest.all hclear row hleft
      exact ⟨List.mem_append_right _ hwrite, hkept⟩
    · exact ⟨List.mem_append_left _ hwrite, hkept⟩

/-- A job that resolves its row comes to the resolution of the row, and keeps it if it is a target. -/
theorem Steady.wp_resolve_task {row : Row} {first : Nat} {prior : Option String} {r : Resolution}
    (hr : e.Resolves m target s row.address first prior r) :
    wp (h.promise target) (ComesTo k (some r) (e.Kept k m target row.key r))
      (e.task ⟨row, .resolve first prior⟩) s := by
  refine wp.bind (h.wp_resolve hr ?_ ?_)
  · intro s₁ hs₁ hkept
    exact wp.done fun s' hs' => .inl ⟨rfl, Kept.later h hkept hs'⟩
  · intro s₁ hs₁ hfired
    exact wp.done fun s' hs' => .inr ⟨hs'.1 hfired, rfl⟩

/-- Workers that resolve rows write the values of the rows. -/
theorem Steady.wp_finish (value : Row → Resolution) {R : Promise k} {Q : α → σ → Prop} {jobs : List Job}
    {f : List (Row × Resolution) → Plan α} (hR : (h.promise target).Implies R)
    (hjobs : ∀ j ∈ jobs, ∃ first prior, j.stage = .resolve first prior ∧
      e.Resolves m target s j.row.address first prior (value j.row))
    (hnext : ∀ results s', (h.promise target).holds s s' →
      e.Written k m target value (jobs.map Job.row) results s' → (f results).wp e R Q s') :
    ((Plan.finish jobs).bind f).wp e R Q s := by
  apply Plan.wp.finish (r := fun j => value j.row)
    (P := fun j => e.Kept k m target j.row.key (value j.row)) hR
  · intro j hj
    obtain ⟨row, stage⟩ := j
    obtain ⟨first, prior, rfl, hr⟩ := hjobs _ hj
    exact h.wp_resolve_task hr
  · intro results s' hs hsome hall
    refine hnext results s' hs ⟨?_, fun hclear => List.forall_mem_map.2 (hall hclear)⟩
    intro w hw
    obtain ⟨j, hj, rfl⟩ := hsome w hw
    exact ⟨List.mem_map_of_mem hj, rfl⟩

theorem Steady.wp_batch {value : Row → Resolution} {addresses : List Address}
    {Q : List Resolution → σ → Prop}
    (hvalue : ∀ row ∈ rowsOf (Address.assignIds addresses),
      e.Resolves m target s row.address 0 none (value row))
    (hQ : ∀ writes s', (h.promise target).holds s s' →
      e.Written k m target value (rowsOf (Address.assignIds addresses)) writes s' →
      Q (fill (rowsOf (Address.assignIds addresses)).length writes) s') :
    (e.batch addresses).wp e (h.promise target) Q s := by
  apply h.wp_finish value (Promise.Implies.refl _)
  · simp only [List.forall_mem_map]
    intro row hrow
    exact ⟨0, none, rfl, hvalue row hrow⟩
  · intro writes s₁ hs₁ hwritten s' hs'
    have hs := (h.promise target).drifts hs'
    rw [List.map_map, Function.comp_def, List.map_id'] at hwritten
    exact hQ writes s' ((h.promise target).trans hs₁ hs) (Written.later h hwritten hs)

/-! ## What addresses come to -/

/-- What an address comes to in a state: what the cache has, or else the providers. -/
def outcomeOf (e : Engine) (m : Conduct σ) (s : σ) (a : Address) : Resolution :=
  (e.found m s a.key).getD (consult m.answer a (e.span 0 e.providers.length) none)

/-- The rows that the cache does not know in a state. -/
def misses (e : Engine) (m : Conduct σ) (s : σ) (rows : List Row) : List Row :=
  rows.filter fun row => (e.found m s row.key).isNone

theorem hit_eq_none {key : String} (hcaching : e.caching = true) (hfound : e.found m s key = none) :
    m.hit s key = none := by
  simpa [found, hcaching] using hfound

theorem targetOf_hit {rows : List Row} {value : Row → Resolution} {key : String} {r : Resolution}
    (hfound : e.found m s key = some r) : e.targetOf value (e.misses m s rows) key = none := by
  apply targetOf_eq_none
  intro _ row hrow hkey
  have hmiss : e.found m s row.key = none := by simpa using (List.mem_filter.1 hrow).2
  rw [hkey, hfound] at hmiss
  cases hmiss

/-- The entry that a run leaves under a key, but for the time it was made at. -/
def finalEntry (m : Conduct σ) (target : String → Option Resolution) (s : σ) (key : String) :
    Option Cache.Entry :=
  match target key with
  | some r => some (.ofResolution key r 0)
  | none => (m.entry s key).map Cache.Entry.undated

/-- All that is a target is kept in the end. -/
theorem Written.holds {rows missed : List Row} {value : Row → Resolution} {writes : List (Row × Resolution)}
    {s' : σ} (hwritten : e.Written k m (e.targetOf value missed) value rows writes s') (hmissed : missed ⊆ rows)
    (hclear : k.world.fired s' = false) {key : String} {r : Resolution}
    (htarget : e.targetOf value missed key = some r) : m.Holds key r s' := by
  obtain ⟨hcaching, row, hrow, rfl, rfl⟩ := targetOf_some htarget
  exact (hwritten.all hclear row (hmissed hrow)).2 hcaching htarget hclear

/-- What a run has left behind when all that is a target has been kept. -/
theorem Written.entry_eq (h : Steady e k m) {rows missed : List Row} {value : Row → Resolution}
    {writes : List (Row × Resolution)} {s' : σ}
    (hwritten : e.Written k m (e.targetOf value missed) value rows writes s') (hmissed : missed ⊆ rows)
    (hs : (h.promise (e.targetOf value missed)).holds s s') (hclear : k.world.fired s' = false)
    (key : String) :
    (m.entry s' key).map Cache.Entry.undated = finalEntry m (e.targetOf value missed) s key := by
  cases htarget : e.targetOf value missed key with
  | none => rw [finalEntry, htarget, Steady.entry_eq hs htarget]
  | some r =>
    unfold finalEntry
    rw [htarget]
    exact (hwritten.holds hmissed hclear htarget).undated

theorem misses_subset (rows : List Row) : e.misses m s rows ⊆ rows :=
  fun _ hrow => List.mem_of_mem_filter hrow

/-- Rows come to their values where misses are all that is kept. -/
theorem resolves_outcomeOf {rows : List Row} {value : Row → Resolution} {row : Row} (hrow : row ∈ rows)
    (hagree : Agree value (e.misses m s rows)) (hvalue : value row = e.outcomeOf m s row.address) :
    e.Resolves m (e.targetOf value (e.misses m s rows)) s row.address 0 none (value row) := by
  unfold outcomeOf at hvalue
  cases hfound : e.found m s row.address.key with
  | some r =>
    rw [hfound, Option.getD_some] at hvalue
    exact .inl ⟨hfound.trans (congrArg some hvalue.symm), targetOf_hit hfound⟩
  | none =>
    rw [hfound, Option.getD_none] at hvalue
    refine .inr ⟨hvalue.symm, fun hcaching => ⟨?_, .inl (hit_eq_none hcaching hfound)⟩⟩
    have hmiss : row ∈ e.misses m s rows := List.mem_filter.2 ⟨hrow, by simp [Row.key, hfound]⟩
    exact targetOf_eq_some hagree hmiss hcaching

/-- An address by itself comes to its outcome. -/
theorem Steady.geocode_ensures (h : Steady e k m) (calm : ∀ s, k.world.fired s = false) (a : Address)
    (s : σ) : (Plan.ofTask (e.geocode a)).Ensures e k s fun outcome _ =>
      outcome = .ok (e.outcomeOf m s a) := by
  let row : Row := ⟨0, a⟩
  have hagree : Agree (fun row => e.outcomeOf m s row.address) (e.misses m s [row]) := by
    intro row' hrow' row'' hrow'' _
    have heq := List.mem_singleton.1 (List.mem_filter.1 hrow').1
    have heq' := List.mem_singleton.1 (List.mem_filter.1 hrow'').1
    rw [heq, heq']
  have hresolves := resolves_outcomeOf List.mem_cons_self hagree rfl
  refine Plan.wp.ensures (Plan.wp.ofTask (h.wp_resolve hresolves (fun _ _ _ => rfl) ?_) (Promise.Implies.refl _))
  intro s' _ hfired
  rw [calm s'] at hfired
  cases hfired

theorem outcomeOf_same {a a' : Address} (hkey : a.key = a'.key)
    (hanswer : ∀ position, m.answer position a = m.answer position a') :
    e.outcomeOf m s a = e.outcomeOf m s a' := by
  unfold outcomeOf
  rw [hkey, consult_same hanswer]

/-- A batch comes to the outcomes that its addresses have on their own, whatever the order of steps, and
leaves behind the cache with the outcomes of those that it did not know. -/
theorem batch_agrees_with_geocode (h : Steady e k m) (calm : ∀ s, k.world.fired s = false)
    (agree : ∀ position a a', a.key = a'.key → m.answer position a = m.answer position a')
    (addresses : List Address) (s : σ) :
    (e.batch addresses).Ensures e k s fun (slots : List Resolution) s' =>
      slots.length = addresses.length ∧
      (∀ (i : Nat) (a : Address) (slot : Resolution), addresses[i]? = some a → slots[i]? = some slot →
        (Plan.ofTask (e.geocode a)).Ensures e k s (fun outcome _ => outcome = .ok slot) ∧
        (e.caching = true → m.hit s a.key = none → m.Holds a.key slot s')) ∧
      ∀ key, (e.caching = true → ∀ a ∈ addresses, a.key = key → m.hit s key ≠ none) →
        m.entry s' key = m.entry s key := by
  let rows := rowsOf (Address.assignIds addresses)
  let value := fun row : Row => e.outcomeOf m s row.address
  -- Rows with one key have one outcome, so each key has one target, whoever comes to store it.
  have hagree : Agree value (e.misses m s rows) := fun row _ row' _ hkey =>
    outcomeOf_same hkey fun position => agree position _ _ hkey
  have hvalue : ∀ row ∈ rows, e.Resolves m (e.targetOf value (e.misses m s rows)) s row.address 0 none
      (value row) := fun row hrow => resolves_outcomeOf hrow hagree rfl
  refine (h.wp_batch hvalue ?_).ensures
  intro writes s' hs hwritten
  obtain ⟨hmem, hkept⟩ := forall₂_and.1 (hwritten.all (calm s'))
  rw [hwritten.right.fill_eq hmem]
  refine ⟨?_, ?_, ?_⟩
  · rw [List.length_map, length_rowsOf, Address.length_assignIds]
  · intro i a slot ha hslot
    obtain ⟨row, hrow, hkey⟩ := row_of_getElem? ha
    have hslot : e.outcomeOf m s row.address = slot := by simpa [hrow, rows, value] using hslot
    have hsame : e.outcomeOf m s a = slot :=
      (outcomeOf_same hkey.symm fun position => agree position _ _ hkey.symm).trans hslot
    refine ⟨hsame ▸ h.geocode_ensures calm a s, ?_⟩
    intro hcaching hmiss
    rw [← hkey] at hmiss ⊢
    have hin : row ∈ e.misses m s rows :=
      List.mem_filter.2 ⟨List.mem_of_getElem? hrow, by simp [found, hcaching, hmiss]⟩
    have hkept := hkept row (List.mem_of_getElem? hrow) hcaching (targetOf_eq_some hagree hin hcaching) (calm s')
    exact hslot ▸ hkept
  · intro key hkey
    refine Steady.entry_eq hs (targetOf_eq_none ?_)
    intro hcaching row hrow hrowkey
    obtain ⟨hrow, hmiss⟩ := List.mem_filter.1 hrow
    obtain ⟨a, ha, hakey⟩ := address_of_mem hrow
    refine hkey hcaching a ha (hakey.trans hrowkey) ?_
    rw [← hrowkey]
    exact hit_eq_none hcaching (by simpa using hmiss)

/-- One address twice: both slots have what the providers have for it, and so has the cache. -/
theorem batch_agrees_with_geocode_twice :
    (Sample.engine.batch [Sample.home, Sample.home]).Ensures Sample.engine
      (InMemory.setting (fun position _ => Sample.answer position Sample.home) false) {} fun slots s' =>
        slots = [Sample.find "census", Sample.find "census"] ∧
        (InMemory.conduct fun position _ => Sample.answer position Sample.home).Holds Sample.home.key
          (Sample.find "census") s' := by
  apply (batch_agrees_with_geocode (InMemory.steady _ _ _) (InMemory.calm _) (fun _ _ _ _ => rfl)
    [Sample.home, Sample.home] {}).mono
  rintro slots s' ⟨hlength, hslots, _⟩
  have hrun : ((Plan.ofTask (Sample.engine.geocode Sample.home)).run Sample.engine
      (InMemory.setting (fun position _ => Sample.answer position Sample.home) false).world {}).1 =
        some (.ok (Sample.find "census")) := rfl
  obtain ⟨t, run⟩ := (Plan.executes_of_run _ (Prod.ext hrun rfl)).1
  have hslot : ∀ (i : Nat) (slot : Resolution), slots[i]? = some slot →
      [Sample.home, Sample.home][i]? = some Sample.home → slot = Sample.find "census" ∧
        (InMemory.conduct fun position _ => Sample.answer position Sample.home).Holds Sample.home.key slot s' := by
    intro i slot hslot hi
    obtain ⟨hgeocode, hkept⟩ := hslots i _ slot hi hslot
    exact ⟨(Except.ok.inj (hgeocode.2 _ _ _ run)).symm, hkept rfl rfl⟩
  obtain ⟨slot, slot', rfl⟩ := List.length_eq_two.1 hlength
  obtain ⟨rfl, hkept⟩ := hslot 0 slot rfl rfl
  obtain ⟨rfl, -⟩ := hslot 1 slot' rfl rfl
  exact ⟨rfl, hkept⟩

end Steady

end Geocoding.Engine
