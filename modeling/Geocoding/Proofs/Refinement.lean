import Geocoding.Proofs.Steady.Bulk

/-!
# Bulk runs refine batches

A bulk run takes one cascade apart: into lookups, the providers ranked before the bulk provider, submissions,
and what is left of the cascade behind them. Where the bulk provider answers a submission as it answers its
rows one by one, or leaves rows out, or fails, every row comes by each of these routes to what the cascade
as a whole comes to.
-/

namespace Geocoding.Engine

variable {σ : Type} {e : Engine} {k : Setting σ} {m : Conduct σ} {b : BulkProvider}

/-- A provider answers submissions as it answers their rows one by one, as far as it answers them. -/
def Faithful (m : Conduct σ) (position : Nat) : Prop :=
  ∀ rows reply, (rows.map Address.id).Nodup → m.mayAnswer position rows reply →
    reply ≠ .error .cancelled ∧
    ∀ answers, reply = .ok answers → ∀ a ∈ rows, ∀ r, answers.get? a.id = some r →
      if r.matched then m.answer position a = .ok r
      else ∃ r', m.answer position a = .ok r' ∧ r'.matched = false

/-- The cascade as a whole is that of the leading providers, and that from the bulk provider on for what
they leave. -/
theorem outcomeOf_of_miss (hb : e.bulkProvider? = some b) {s : σ} {a : Address} (hmiss : e.found m s a.key = none) :
    e.outcomeOf m s a =
      if (e.leadOf m b.position a).matched then e.leadOf m b.position a
      else consult m.answer a (e.span b.position e.providers.length) (some (e.leadOf m b.position a).source) := by
  have hlt := position_lt_of_bulkProvider? hb
  unfold outcomeOf
  rw [hmiss, Option.getD_none, ← e.span_append_span (Nat.zero_le _) hlt.le (Nat.le_refl _), consult_append]
  rfl

/-- A row that the bulk provider has answered as unmatched is resolved behind it. -/
theorem consult_of_unmatched {a : Address} (hb : e.bulkProvider? = some b) {r : Resolution}
    (hanswer : m.answer b.position a = .ok r) (last : Option String) :
    consult m.answer a (e.span b.position e.providers.length) last =
      if r.matched then r
      else consult m.answer a (e.span (b.position + 1) e.providers.length) (some b.name) := by
  obtain ⟨p, hp, havailable, hname, -⟩ := provider_of_bulkProvider? hb
  rw [span_cons e hp, consult_cons havailable, hanswer, ← hname]

/-- Whatever a faithful provider answers, every row of a chunk that the leading providers have not matched
lands at the outcome of the whole cascade. -/
theorem Faithful.accounts (hb : e.bulkProvider? = some b) (hfaithful : Faithful m b.position)
    (hid : ∀ position a id, m.answer position (a.withId id) = m.answer position a) {s : σ}
    {chunk : List Row} (hchunk : (chunk.map Row.index).Nodup)
    (hmiss : ∀ row ∈ chunk, e.found m s row.key = none)
    (hlead : ∀ row ∈ chunk, (e.leadOf m b.position row.address).matched = false) :
    e.Accounts m b (fun row => e.outcomeOf m s row.address) chunk := by
  intro reply hreply
  obtain ⟨hclear, hanswers⟩ := hfaithful _ reply (nodup_id_submitted hchunk) hreply
  refine ⟨hclear, ?_⟩
  intro row hrow
  -- The leading providers have not matched the row, so the cascade goes on at the bulk provider.
  have hrest := outcomeOf_of_miss hb (hmiss row hrow)
  rw [if_neg (by simp [hlead row hrow])] at hrest
  cases reply with
  -- A refused chunk, and a row that was left out, are resolved from the bulk provider on.
  | error error => exact hrest.symm
  | ok answers =>
    rw [landing]
    cases hget : answers.get? row.index.repr with
    | none => simpa only [hget] using hrest.symm
    | some r =>
      have hanswer := hanswers answers rfl _ (List.mem_map_of_mem hrow) r hget
      simp only [submitted, hid] at hanswer
      simp only
      rw [hrest]
      split
      next hmatched =>
        rw [if_pos hmatched] at hanswer
        rw [consult_of_unmatched hb hanswer, if_pos hmatched]
      next hunmatched =>
        rw [if_neg hunmatched] at hanswer
        obtain ⟨r', hanswer, hunmatched'⟩ := hanswer
        rw [consult_of_unmatched hb hanswer, if_neg (by simp [hunmatched'])]

/-- The routes of a bulk run lead to the outcomes of the whole cascade. -/
theorem Faithful.fits (hb : e.bulkProvider? = some b) (hfaithful : Faithful m b.position)
    (hid : ∀ position a id, m.answer position (a.withId id) = m.answer position a) {rows : List Row}
    (hindex : (rows.map Row.index).Nodup) (hkey : (rows.map Row.key).Nodup) (s : σ) :
    e.Fits m (e.targetOf (fun row => e.outcomeOf m s row.address) (e.misses m s rows)) b
      (fun row => e.outcomeOf m s row.address) rows s where
  hit row hrow r hfound := by
    refine ⟨?_, targetOf_hit hfound⟩
    unfold Row.key at hfound
    unfold outcomeOf
    rw [hfound, Option.getD_some]
  miss row hrow := targetOf_eq_some (Agree.of_nodup (hkey.sublist (List.filter_sublist.map _))) hrow
  lead row hrow hmatched := by
    have hmiss : e.found m s row.key = none := by simpa using (List.mem_filter.1 hrow).2
    rw [outcomeOf_of_miss hb hmiss, if_pos hmatched]
  accounts chunk hchunk := by
    -- A chunk holds rows that the cache does not know and the leading providers have not matched.
    have hsub : chunk.Sublist (e.remaining m b.position (e.misses m s rows)) := by
      rw [← flatten_chunksOf (e.submissionSize b - 1) (e.remaining m b.position (e.misses m s rows))]
      exact List.sublist_flatten_of_mem hchunk
    have hsub' : chunk.Sublist rows := hsub.trans (List.filter_sublist.trans List.filter_sublist)
    apply hfaithful.accounts hb hid (hindex.sublist (hsub'.map _))
    · intro row hrow
      have hrow := List.mem_of_mem_filter (hsub.subset hrow)
      simpa using (List.mem_filter.1 hrow).2
    · intro row hrow
      have hrow := (List.mem_filter.1 (hsub.subset hrow)).2
      simpa using hrow

/-- A bulk run comes to the slots that a batch comes to, and leaves behind the same entries, but for the
times they were made at. -/
theorem bulk_refines_batch (h : Steady e k m) (calm : ∀ s, k.world.fired s = false)
    (hid : ∀ position a id, m.answer position (a.withId id) = m.answer position a)
    (hfaithful : ∀ b, e.bulkProvider? = some b → Faithful m b.position)
    (addresses : List Address) (hkeys : (addresses.map Address.key).Nodup) (s : σ) :
    (e.batch addresses).Ensures e k s fun slots s₁ =>
      (e.bulk addresses).Ensures e k s fun slots' s₂ =>
        slots' = slots ∧ ∀ key, (m.entry s₂ key).map Cache.Entry.undated =
          (m.entry s₁ key).map Cache.Entry.undated := by
  let rows := rowsOf (Address.assignIds addresses)
  let value := fun row : Row => e.outcomeOf m s row.address
  let target := e.targetOf value (e.misses m s rows)
  have hkeys : (rows.map Row.key).Nodup := by
    rw [map_key_rowsOf]
    exact hkeys
  have hvalue : ∀ row ∈ rows, e.Resolves m target s row.address 0 none (value row) := fun row hrow =>
    resolves_outcomeOf hrow (Agree.of_nodup (hkeys.sublist (List.filter_sublist.map _))) rfl
  refine (h.wp_batch hvalue ?_).ensures
  intro writes s₁ hs₁ hwritten
  -- Both runs aim at the same values and targets, and each alone meets them.
  have hsame : ∀ writes' s₂, (h.promise target).holds s s₂ → e.Written k m target value rows writes' s₂ →
      fill rows.length writes' = fill rows.length writes ∧
      ∀ key, (m.entry s₂ key).map Cache.Entry.undated = (m.entry s₁ key).map Cache.Entry.undated := by
    intro writes' s₂ hs₂ hwritten'
    constructor
    · rw [hwritten.right.fill_eq fun row hrow => (hwritten.all (calm s₁) row hrow).1]
      exact hwritten'.right.fill_eq fun row hrow => (hwritten'.all (calm s₂) row hrow).1
    · intro key
      rw [hwritten.entry_eq h (misses_subset rows) hs₁ (calm s₁) key]
      exact hwritten'.entry_eq h (misses_subset rows) hs₂ (calm s₂) key
  cases hb : e.bulkProvider? with
  | none =>
    have hbatch : e.bulk addresses = e.batch addresses := by rw [bulk, hb]
    rw [hbatch]
    exact (h.wp_batch hvalue hsame).ensures
  | some b =>
    have hfits := (hfaithful b hb).fits hb hid (nodup_index_rowsOf _) hkeys s
    exact (h.wp_bulk hb hfits hsame).ensures

theorem InMemory.faithful (answer : Nat → Address → Except Error Resolution) (position : Nat) :
    Faithful (conduct answer) position := by
  rintro rows _ hids rfl
  refine ⟨by rintro ⟨⟩, ?_⟩
  rintro _ ⟨⟩ a ha r hget
  obtain ⟨a', ha', hid, hanswer⟩ := mem_of_rowwise hget
  obtain rfl : a' = a := List.inj_on_of_nodup_map hids ha' ha hid
  split
  next => exact hanswer
  next hunmatched => exact ⟨r, hanswer, by simpa using hunmatched⟩

/-- Two addresses, of which the submission matches one. -/
theorem bulk_refines_batch_two : ([Sample.home, Sample.office].map Address.key).Nodup ∧
    (Sample.engine.batch [Sample.home, Sample.office]).Ensures Sample.engine
      (InMemory.setting Sample.answer false) {} fun slots s₁ =>
        (Sample.engine.bulk [Sample.home, Sample.office]).Ensures Sample.engine
          (InMemory.setting Sample.answer false) {} fun slots' s₂ =>
            slots' = slots ∧ ∀ key, ((InMemory.conduct Sample.answer).entry s₂ key).map Cache.Entry.undated =
              ((InMemory.conduct Sample.answer).entry s₁ key).map Cache.Entry.undated :=
  ⟨Sample.nodup_key, bulk_refines_batch (InMemory.steady _ Sample.answer _) (InMemory.calm _)
    Sample.answer_withId (fun b _ => InMemory.faithful _ b.position) _ Sample.nodup_key {}⟩

end Geocoding.Engine
