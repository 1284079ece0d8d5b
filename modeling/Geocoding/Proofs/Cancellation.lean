import Geocoding.Proofs.Heeding
import Geocoding.Proofs.Refinement

/-!
# Cutting runs short

Whenever the token fires, and whatever is in flight when it does, a run differs from one that is left alone
only by what it leaves out: it starts no call any more, the entries that it has changed are those that the
other run leaves behind, and the slots that it has filled are the slots of the other run.
-/

namespace Geocoding.Engine

variable {α σ : Type} {e : Engine} {k k₀ : Setting σ} {m : Conduct σ} {s s₀ : σ}

/-- What the token does to the runs of a plan does no harm, seen from a state in which a run that was left
alone has ended: no call is started once the token has fired, entries are changed only under keys that the cache
did not know, and are made of the same resolution as in that state, and the outcome is as it should be. -/
structure Plan.Harmless (e : Engine) (k : Setting σ) (m : Conduct σ) (p : Plan α) (s : σ) (Q : α → Prop)
    (s₁ : σ) : Prop where
  heeds : ∀ {t c s' t' c' s'' who call}, Config.Steps e k (.ready p) s t c s' →
    Config.Step e k c s' t' c' s'' → Event.started who call ∈ t' → k.world.fired s' = false
  entries : ∀ {t c s'} key, Config.Steps e k (.ready p) s t c s' →
    m.entry s' key = m.entry s key ∨
      m.hit s key = none ∧ ∃ r, m.Holds key r s' ∧ m.Holds key r s₁
  ensures : p.Ensures e k s fun a _ => Q a

/-- Every slot is one of a full list of slots, or was left at its default. -/
def CutShort (slots full : List Resolution) : Prop :=
  List.Forall₂ (fun slot r => slot = {} ∨ slot = r) slots full

theorem Right.cutShort {addresses : List Address} {value : Row → Resolution}
    {writes : List (Row × Resolution)} (h : Right (rowsOf addresses) value writes) :
    CutShort (fill (rowsOf addresses).length writes) ((rowsOf addresses).map value) := by
  refine List.forall₂_iff_get.2 ⟨by rw [length_fill, List.length_map], ?_⟩
  intro i hi hi'
  refine (h.getElem?_fill (List.getElem?_eq_getElem hi)).imp_right fun hslot => ?_
  rw [List.getElem?_eq_getElem hi', Option.some.injEq] at hslot
  exact hslot.symm

section Harmless

variable {rows : List Row} {value : Row → Resolution}

/-- A plan that heeds the token, and writes nothing wrong in any setting in which its collaborators are
steady, is not harmed by the token. -/
theorem harmless_of_wp (rows : List Row) (value : Row → Resolution) {p : Plan α} (hp : p.Heeds false)
    (h : Steady e k m) (h₀ : Steady e k₀ m)
    (calm : ∀ s, k₀.world.fired s = false) (hs : ∀ key, m.entry s₀ key = m.entry s key)
    (result : List (Row × Resolution) → α → Prop)
    (hwp : ∀ {k'} (h' : Steady e k' m) s', (∀ key, m.entry s' key = m.entry s key) →
      p.wp e (h'.promise (e.targetOf value (e.misses m s rows))) (fun a s'' => ∃ writes,
        (h'.promise (e.targetOf value (e.misses m s rows))).holds s' s'' ∧
        e.Written k' m (e.targetOf value (e.misses m s rows)) value rows writes s'' ∧ result writes a) s')
    {Q : α → α → Prop}
    (hQ : ∀ {writes writes₀ a a₀}, Right rows value writes → Right rows value writes₀ →
      (∀ row ∈ rows, (row, value row) ∈ writes₀) → result writes a → result writes₀ a₀ → Q a a₀) :
    p.Ensures e k₀ s₀ fun a₀ s₁ => p.Harmless e k m s (fun a => Q a a₀) s₁ := by
  apply (hwp h₀ s₀ hs).ensures.mono
  rintro a₀ s₁ ⟨writes₀, hs₁, hwritten₀, hresult₀⟩
  refine ⟨fun steps step hstarted => hp.not_fired steps step hstarted, fun key steps => ?_, ?_⟩
  · apply ((steps.wp (hwp h s fun _ => rfl)).1.2 key).imp_right
    rintro ⟨r, htarget, hkept⟩
    -- Only a target is ever stored, and a run that is left alone ends with all targets kept.
    refine ⟨?_, r, hkept, hwritten₀.holds (misses_subset rows) (calm s₁) htarget⟩
    obtain ⟨hcaching, row, hrow, rfl, -⟩ := targetOf_some htarget
    exact hit_eq_none hcaching (by simpa using (List.mem_filter.1 hrow).2)
  · apply (hwp h s fun _ => rfl).ensures.mono
    rintro a s' ⟨writes, _, hwritten, hresult⟩
    exact hQ hwritten.right hwritten₀.right (fun row hrow => (hwritten₀.all (calm s₁) row hrow).1) hresult
      hresult₀

/-- The value of a row is the outcome of the cascade for it, in every state with the same entries. -/
theorem resolves_of_same {s' : σ} (hs : ∀ key, m.entry s' key = m.entry s key)
    (hkeys : (rows.map Row.key).Nodup) {row : Row} (hrow : row ∈ rows) :
    e.Resolves m (e.targetOf (fun row => e.outcomeOf m s row.address) (e.misses m s rows)) s' row.address 0 none
      (e.outcomeOf m s row.address) := by
  have hresolves : e.Resolves m (e.targetOf (fun row => e.outcomeOf m s row.address) (e.misses m s rows)) s
      row.address 0 none (e.outcomeOf m s row.address) :=
    resolves_outcomeOf hrow (Agree.of_nodup (hkeys.sublist (List.filter_sublist.map _))) rfl
  exact hresolves.congr hs

theorem harmless_geocode (h : Steady e k m) (h₀ : Steady e k₀ m) (calm : ∀ s, k₀.world.fired s = false)
    (hs : ∀ key, m.entry s₀ key = m.entry s key) (a : Address) :
    (Plan.ofTask (e.geocode a)).Ensures e k₀ s₀ fun outcome s₁ =>
      (Plan.ofTask (e.geocode a)).Harmless e k m s (fun o => o = .error .cancelled ∨ o = outcome) s₁ := by
  let row : Row := ⟨0, a⟩
  let value := fun row : Row => e.outcomeOf m s row.address
  apply harmless_of_wp [row] value (Plan.heeds_ofTask (e.heeds_resolve a 0 none)) h h₀ calm hs
    (fun writes outcome => writes = [] ∧ outcome = .error .cancelled ∨
      writes = [(row, value row)] ∧ outcome = .ok (value row))
  · intro k' h' s' hs'
    have hkeys : ([row].map Row.key).Nodup := List.nodup_singleton row.key
    have hresolves := resolves_of_same (e := e) hs' hkeys (List.mem_singleton_self row)
    refine Plan.wp.ofTask (h'.wp_resolve hresolves ?_ ?_) (Promise.Implies.refl _)
    · intro s'' hs'' hkept
      refine ⟨[(row, value row)], hs'', ⟨?_, ?_⟩, .inr ⟨rfl, rfl⟩⟩
      · intro w hw
        rw [List.mem_singleton.1 hw]
        exact ⟨List.mem_singleton_self row, rfl⟩
      · intro hclear row' hrow'
        rw [List.mem_singleton.1 hrow']
        exact ⟨List.mem_singleton_self _, hkept⟩
    · intro s'' hs'' hfired
      exact ⟨[], hs'', .of_fired (fun w hw => absurd hw List.not_mem_nil) hfired, .inl ⟨rfl, rfl⟩⟩
  · intro writes writes₀ o o₀ _ _ hall hresult hresult₀
    rcases hresult₀ with ⟨rfl, -⟩ | ⟨-, rfl⟩
    -- A run that is left alone comes to an outcome.
    · exact absurd (hall row (List.mem_singleton_self row)) List.not_mem_nil
    · exact hresult.imp And.right And.right

variable {addresses : List Address}

/-- What is written for the rows of a batch fills its slots. -/
theorem cutShort_of_right {writes writes₀ : List (Row × Resolution)}
    (hright : Right (rowsOf (Address.assignIds addresses)) value writes)
    (hright₀ : Right (rowsOf (Address.assignIds addresses)) value writes₀)
    (hall : ∀ row ∈ rowsOf (Address.assignIds addresses), (row, value row) ∈ writes₀) :
    CutShort (fill (rowsOf (Address.assignIds addresses)).length writes)
      (fill (rowsOf (Address.assignIds addresses)).length writes₀) := by
  rw [hright₀.fill_eq hall]
  exact hright.cutShort

theorem harmless_batch (h : Steady e k m) (h₀ : Steady e k₀ m) (calm : ∀ s, k₀.world.fired s = false)
    (hs : ∀ key, m.entry s₀ key = m.entry s key)
    (hkeys : ((rowsOf (Address.assignIds addresses)).map Row.key).Nodup) :
    (e.batch addresses).Ensures e k₀ s₀ fun slots s₁ =>
      (e.batch addresses).Harmless e k m s (CutShort · slots) s₁ := by
  apply harmless_of_wp (rowsOf (Address.assignIds addresses))
    (fun row => e.outcomeOf m s row.address) (e.heeds_batch addresses) h h₀ calm hs
    (fun writes slots => slots = fill (rowsOf (Address.assignIds addresses)).length writes)
  · intro k' h' s' hs'
    apply h'.wp_batch (fun row hrow => resolves_of_same hs' hkeys hrow)
    intro writes s'' hs'' hwritten
    exact ⟨writes, hs'', hwritten, rfl⟩
  · rintro writes writes₀ _ _ hright hright₀ hall rfl rfl
    exact cutShort_of_right hright hright₀ hall

/-! ## Bulk runs -/

/-- What a row comes to in a bulk run, given the reply to every submission. -/
def bulkOutcomeOf (e : Engine) (m : Conduct σ) (b : BulkProvider)
    (submits : Nat → List Address → Except Error Answers) (s : σ) (rows : List Row) (row : Row) :
    Resolution :=
  (e.found m s row.key).getD <|
    let lead := e.leadOf m b.position row.address
    if lead.matched then lead
    else
      let chunks := chunksOf (e.submissionSize b - 1) (e.remaining m b.position (e.misses m s rows))
      match chunks.find? (·.contains row) with
      | some chunk => e.landing m b (submits b.position (chunk.map submitted)) row
      | none => {}

/-- An item is in one chunk only. -/
theorem find?_contains_of_mem {β : Type} [BEq β] [LawfulBEq β] {chunks : List (List β)}
    (h : chunks.flatten.Nodup) {chunk : List β} (hchunk : chunk ∈ chunks) {a : β} (ha : a ∈ chunk) :
    chunks.find? (·.contains a) = some chunk := by
  induction chunks with
  | nil => cases hchunk
  | cons first rest ih =>
    rw [List.flatten_cons, List.nodup_append'] at h
    rw [List.find?_cons]
    rcases List.mem_cons.1 hchunk with rfl | hchunk
    · simp [ha]
    · have hnot : a ∉ first := fun hfirst =>
        h.2.2 hfirst (List.mem_flatten.2 ⟨chunk, hchunk, ha⟩)
      rw [List.contains_eq_mem, decide_eq_false hnot]
      exact ih h.2.1 hchunk

/-- Where every submission has one reply, the routes of a bulk run lead to its outcomes. -/
theorem fits_bulkOutcomeOf {b : BulkProvider} {submits : Nat → List Address → Except Error Answers}
    (hsubmits : ∀ position rows reply, m.mayAnswer position rows reply → reply = submits position rows)
    (hclear : ∀ position rows, submits position rows ≠ .error .cancelled)
    (hindex : (rows.map Row.index).Nodup) (hkeys : (rows.map Row.key).Nodup) {s' : σ}
    (hs : ∀ key, m.entry s' key = m.entry s key) :
    e.Fits m (e.targetOf (e.bulkOutcomeOf m b submits s rows) (e.misses m s rows)) b
      (e.bulkOutcomeOf m b submits s rows) rows s' := by
  -- Both runs start from the same entries, so they miss the same rows and cut the same chunks.
  have hmisses : e.misses m s' rows = e.misses m s rows :=
    List.filter_congr fun row _ => by rw [found_congr (hs row.key)]
  have hmiss : ∀ row ∈ e.misses m s rows, e.found m s row.key = none := fun row hrow => by
    simpa using (List.mem_filter.1 hrow).2
  have hagree : Agree (e.bulkOutcomeOf m b submits s rows) (e.misses m s rows) :=
    Agree.of_nodup (hkeys.sublist (List.filter_sublist.map _))
  constructor
  case hit =>
    intro row hrow r hfound
    rw [found_congr (hs row.key)] at hfound
    exact ⟨by rw [bulkOutcomeOf, hfound, Option.getD_some], targetOf_hit hfound⟩
  case miss =>
    rw [hmisses]
    intro row hrow
    exact targetOf_eq_some hagree hrow
  case lead =>
    rw [hmisses]
    intro row hrow hmatched
    unfold bulkOutcomeOf
    rw [hmiss row hrow, Option.getD_none]
    simp only [hmatched, if_true]
  case accounts =>
    rw [hmisses]
    intro chunk hchunk reply hreply
    rw [hsubmits _ _ _ hreply]
    refine ⟨hclear _ _, ?_⟩
    intro row hrow
    have hflatten := flatten_chunksOf (e.submissionSize b - 1) (e.remaining m b.position (e.misses m s rows))
    have hrest : row ∈ e.remaining m b.position (e.misses m s rows) := by
      rw [← hflatten]
      exact List.mem_flatten.2 ⟨chunk, hchunk, hrow⟩
    have hunmatched := (List.mem_filter.1 hrest).2
    have hnodup : (e.remaining m b.position (e.misses m s rows)).Nodup :=
      (List.Nodup.of_map _ hindex).sublist (List.filter_sublist.trans List.filter_sublist)
    unfold bulkOutcomeOf
    rw [hmiss row (List.mem_of_mem_filter hrest), Option.getD_none]
    rw [← hflatten] at hnodup
    simp only [find?_contains_of_mem hnodup hchunk hrow]
    rw [if_neg (by simpa using hunmatched)]

theorem harmless_bulk (h : Steady e k m) (h₀ : Steady e k₀ m) (calm : ∀ s, k₀.world.fired s = false)
    {submits : Nat → List Address → Except Error Answers}
    (hsubmits : ∀ position rows reply, m.mayAnswer position rows reply → reply = submits position rows)
    (hclear : ∀ position rows, submits position rows ≠ .error .cancelled)
    (hs : ∀ key, m.entry s₀ key = m.entry s key)
    (hkeys : ((rowsOf (Address.assignIds addresses)).map Row.key).Nodup) :
    (e.bulk addresses).Ensures e k₀ s₀ fun slots s₁ =>
      (e.bulk addresses).Harmless e k m s (CutShort · slots) s₁ := by
  cases hb : e.bulkProvider? with
  | none =>
    have hbatch : e.bulk addresses = e.batch addresses := by rw [bulk, hb]
    rw [hbatch]
    exact harmless_batch h h₀ calm hs hkeys
  | some b =>
    apply harmless_of_wp (rowsOf (Address.assignIds addresses))
      (e.bulkOutcomeOf m b submits s (rowsOf (Address.assignIds addresses)))
      (e.heeds_bulk addresses) h h₀ calm hs
      (fun writes slots => slots = fill (rowsOf (Address.assignIds addresses)).length writes)
    · intro k' h' s' hs'
      have hfits := fits_bulkOutcomeOf (e := e) (b := b) hsubmits hclear (nodup_index_rowsOf _) hkeys hs'
      exact h'.wp_bulk hb hfits fun writes s'' hs'' hwritten => ⟨writes, hs'', hwritten, rfl⟩
    · rintro writes writes₀ _ _ hright hright₀ hall rfl rfl
      exact cutShort_of_right hright hright₀ hall

end Harmless

/-- Wherever the token fires, a run comes to no harm: measured by the runs of the same plan in a setting in
which it never does, from the same entries. -/
theorem cancellation_is_harmless (h : Steady e k m) (h₀ : Steady e k₀ m)
    (calm : ∀ s, k₀.world.fired s = false) (submits : Nat → List Address → Except Error Answers)
    (hsubmits : ∀ position rows reply, m.mayAnswer position rows reply → reply = submits position rows)
    (hclear : ∀ position rows, submits position rows ≠ .error .cancelled)
    (hs : ∀ key, m.entry s₀ key = m.entry s key) :
    (∀ a, (Plan.ofTask (e.geocode a)).Ensures e k₀ s₀ fun outcome s₁ =>
      (Plan.ofTask (e.geocode a)).Harmless e k m s (fun o => o = .error .cancelled ∨ o = outcome) s₁) ∧
    ∀ addresses, (addresses.map Address.key).Nodup →
      ((e.batch addresses).Ensures e k₀ s₀ fun slots s₁ =>
        (e.batch addresses).Harmless e k m s (CutShort · slots) s₁) ∧
      ((e.bulk addresses).Ensures e k₀ s₀ fun slots s₁ =>
        (e.bulk addresses).Harmless e k m s (CutShort · slots) s₁) := by
  refine ⟨harmless_geocode h h₀ calm hs, ?_⟩
  intro addresses hkeys
  rw [← map_key_rowsOf] at hkeys
  exact ⟨harmless_batch h h₀ calm hs hkeys, harmless_bulk h h₀ calm hsubmits hclear hs hkeys⟩

/-- The token may fire at any moment of a run over two addresses. -/
theorem cancellation_is_harmless_two : ([Sample.home, Sample.office].map Address.key).Nodup ∧
    (Sample.engine.bulk [Sample.home, Sample.office]).Ensures Sample.engine
      (InMemory.setting Sample.answer false) {} fun slots s₁ =>
        (Sample.engine.bulk [Sample.home, Sample.office]).Harmless Sample.engine
          (InMemory.setting Sample.answer true) (InMemory.conduct Sample.answer) {} (CutShort · slots) s₁ :=
  ⟨Sample.nodup_key, ((cancellation_is_harmless (InMemory.steady _ _ true) (InMemory.steady _ _ false)
    (InMemory.calm _) (fun position rows => .ok (InMemory.rowwise Sample.answer position rows))
    (fun _ _ _ hreply => hreply) (by rintro _ _ ⟨⟩) fun _ => rfl).2 _ Sample.nodup_key).2⟩

end Geocoding.Engine
