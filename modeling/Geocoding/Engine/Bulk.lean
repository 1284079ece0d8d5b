import Geocoding.Engine.Plan

/-!
# Bulk runs

Many addresses by way of the first provider that takes bulk submissions, at its place in the order: rows
that the cache knows are answered from it; of the others, the providers ranked before the bulk provider are
asked one by one; what they leave is submitted in chunks; and the rest of the cascade takes up every row
that the submission has not matched. It does so behind the bulk provider for a row that was answered as
unmatched, and at the bulk provider for a row that was not answered at all.
-/

namespace Geocoding.Engine

/-- A provider that takes bulk submissions. -/
structure BulkProvider where
  position : Nat
  name : String
  limit : Nat
deriving DecidableEq

/-- The first available provider that takes bulk submissions. -/
def bulkProvider? (e : Engine) : Option BulkProvider :=
  e.providers.zipIdx.findSome? fun (p, position) =>
    if p.available then p.bulkLimit.map fun limit => ⟨position, p.name, limit⟩ else none

/-- The bulk provider is one of the providers, and available. -/
theorem provider_of_bulkProvider? {e : Engine} {b : BulkProvider} (h : e.bulkProvider? = some b) :
    ∃ p, e.providers[b.position]? = some p ∧ p.available = true ∧ p.name = b.name ∧
      p.bulkLimit = some b.limit := by
  obtain ⟨⟨p, position⟩, hmem, hp⟩ := List.exists_of_findSome?_eq_some h
  simp only at hp
  split at hp
  next havailable =>
    obtain ⟨limit, hlimit, rfl⟩ := Option.map_eq_some_iff.1 hp
    exact ⟨p, (List.mem_zipIdx_iff_getElem? .. ).1 hmem, havailable, rfl, hlimit⟩
  next => cases hp

theorem position_lt_of_bulkProvider? {e : Engine} {b : BulkProvider} (h : e.bulkProvider? = some b) :
    b.position < e.providers.length := by
  obtain ⟨p, hp, -⟩ := provider_of_bulkProvider? h
  exact (List.getElem?_eq_some_iff.1 hp).1

/-- The hits among rows that were looked up, up to the first lookup that was given up. -/
def hitsIn (probes : List (Row × Outcome)) : List (Row × Resolution) :=
  resolved (probes.takeWhile (·.2.isOk))

/-- Keep the outcomes of rows in the cache. -/
def keepAll (results : List (Row × Resolution)) : Plan Unit := do
  let _ ← Plan.each (results.map fun (row, r) => ⟨row, .keep r⟩)
  return ()

/-- The provider that was asked last about each row that the leading providers have not matched, where
there was one. -/
def priorsOf (results : List (Row × Resolution)) : List (Nat × String) :=
  (results.filter fun w => !w.2.matched && w.2.source != "").map fun w => (w.1.index, w.2.source)

/-- The rows that none of the results is about. -/
def without (rows : List Row) (results : List (Row × Resolution)) : List Row :=
  rows.filter fun row => !results.any fun w => w.1.index == row.index

/-- Cut a list into chunks of `n + 1` items. -/
def chunksOf {α : Type} (n : Nat) : List α → List (List α)
  | [] => []
  | a :: rest => (a :: rest.take n) :: chunksOf n (rest.drop n)
termination_by l => l.length
decreasing_by simp only [List.length_drop, List.length_cons]; omega

theorem flatten_chunksOf {α : Type} (n : Nat) (l : List α) : (chunksOf n l).flatten = l := by
  induction l using chunksOf.induct n with
  | case1 => simp [chunksOf]
  | case2 a rest ih =>
    rw [chunksOf, List.flatten_cons, ih, List.cons_append, List.take_append_drop]

theorem of_mem_chunksOf {α : Type} {n : Nat} {l chunk : List α} (h : chunk ∈ chunksOf n l) :
    chunk ≠ [] ∧ chunk.length ≤ n + 1 := by
  induction l using chunksOf.induct n with
  | case1 => simp [chunksOf] at h
  | case2 a rest ih =>
    rw [chunksOf, List.mem_cons] at h
    rcases h with rfl | h
    · exact ⟨List.cons_ne_nil _ _, by rw [List.length_cons, List.length_take]; omega⟩
    · exact ih h

/-- A row for the provider, tagged with its position in the batch. -/
def submitted (row : Row) : Address :=
  row.address.withId row.index.repr

/-- The outcomes and the jobs that are left when chunks have been dealt with. -/
structure Settled where
  results : List (Row × Resolution) := []
  leftovers : List Job := []

/-- The job of a row that the bulk provider has not answered. -/
def unanswered (b : BulkProvider) (priors : List (Nat × String)) (row : Row) : Job :=
  ⟨row, .resolve b.position (priors.lookup row.index)⟩

/-- What becomes of a row of a chunk that was answered: an outcome, or a job. -/
def settleRow (b : BulkProvider) (priors : List (Nat × String)) (answers : Answers) (row : Row) :
    (Row × Resolution) ⊕ Job :=
  match answers.get? row.index.repr with
  | some r => if r.matched then .inl (row, r) else .inr ⟨row, .resolve (b.position + 1) (some b.name)⟩
  | none => .inr (unanswered b priors row)

/-- The outcomes among settled rows. -/
def resultsIn (rows : List ((Row × Resolution) ⊕ Job)) : List (Row × Resolution) :=
  rows.filterMap Sum.getLeft?

/-- The jobs among settled rows. -/
def jobsIn (rows : List ((Row × Resolution) ⊕ Job)) : List Job :=
  rows.filterMap Sum.getRight?

/-- Submit chunks one after the other. The second part of the outcome says whether the run went on to the
end; what was settled before it was cancelled stands. -/
def submitAll (b : BulkProvider) (priors : List (Nat × String)) :
    List (List Row) → Plan (Settled × Bool)
  | [] => return ({}, true)
  | chunk :: chunks => do
    if ← Plan.fired then return ({}, false)
    match ← Plan.ofTask (Program.guarded collaborators (.submit b.position (chunk.map submitted))) with
    | .error error =>
      if error.isCancelled then return ({}, false)
      let (rest, completed) ← submitAll b priors chunks
      return (⟨rest.results, chunk.map (unanswered b priors) ++ rest.leftovers⟩, completed)
    | .ok answers =>
      let settled := chunk.map (settleRow b priors answers)
      keepAll (resultsIn settled)
      let (rest, completed) ← submitAll b priors chunks
      return (⟨resultsIn settled ++ rest.results, jobsIn settled ++ rest.leftovers⟩, completed)

/-- The number of rows of a submission. -/
def submissionSize (e : Engine) (b : BulkProvider) : Nat :=
  max 1 (min e.chunkSize b.limit)

/-- Submit rows, and resolve one by one what that leaves. -/
def submitRows (e : Engine) (b : BulkProvider) (priors : List (Nat × String)) (rows : List Row) :
    Plan (List (Row × Resolution)) := do
  let (settled, completed) ← submitAll b priors (chunksOf (e.submissionSize b - 1) rows)
  if !completed then return settled.results
  return settled.results ++ (← Plan.finish settled.leftovers)

/-- Ask the providers before the bulk provider about rows, if one of them is available, and submit what
they leave. -/
def leadAndSubmit (e : Engine) (b : BulkProvider) (rows : List Row) : Plan (List (Row × Resolution)) := do
  if (e.providers.take b.position).any Provider.available then
    let results ← Plan.finish (rows.map fun row => ⟨row, .leading b.position⟩)
    let answered := results.filter (·.2.matched)
    keepAll answered
    if ← Plan.fired then return answered
    return answered ++ (← e.submitRows b (priorsOf results) (without rows answered))
  else e.submitRows b [] rows

/-- A bulk run by way of a bulk provider. Rows are looked up in the cache first, several at a time. -/
def bulkBy (e : Engine) (b : BulkProvider) (rows : List Row) : Plan (List (Row × Resolution)) := do
  let probes ← Plan.each (rows.map fun row => ⟨row, .lookup⟩)
  let hits := hitsIn probes
  if !probes.all (·.2.isOk) then return hits
  return hits ++ (← e.leadAndSubmit b (without rows hits))

/-- Resolve many addresses, by bulk submissions if a provider takes them, or else one by one. The outcome
has a slot for each of them, in order. -/
def bulk (e : Engine) (addresses : List Address) : Plan (List Resolution) :=
  match e.bulkProvider? with
  | none => e.batch addresses
  | some b => do
    let rows := rowsOf (Address.assignIds addresses)
    return fill rows.length (← e.bulkBy b rows)

end Geocoding.Engine
