import Geocoding.Engine.Bulk
import Geocoding.Proofs.Interleaving.Traces
import Mathlib.Data.List.Nodup

/-!
# Notes about rows

What a run shows of itself says of every row how it fared: whether the cache knew it, who matched it, whether
it was resolved again, and what was kept for it. A job notes nothing about other rows than its own, so notes
about a row can be read off the one job of a pool that is about it.
-/

namespace Geocoding.Engine

variable {α : Type} {e : Engine}

/-- How a row fared. -/
inductive Note where
  /-- The cache knew it when it was looked up. -/
  | hit (r : Resolution)
  /-- A leading provider matched it. -/
  | led (r : Resolution)
  /-- A submission matched it. -/
  | bulk (r : Resolution)
  /-- It was taken up again. -/
  | rerun
  /-- The cache knew it when it was taken up again. -/
  | known (r : Resolution)
  /-- A resolution was passed to the cache for it. -/
  | stored (key : String) (r : Resolution)
deriving DecidableEq

/-- What an event says of a row. -/
def note? (row : Row) : Event → Option Note
  | .begun ⟨row', .resolve _ _⟩ => if row' = row then some .rerun else none
  | .answered (some ⟨row', .lookup⟩) (.check _) (.ok (some r)) => if row' = row then some (.hit r) else none
  | .answered (some ⟨row', .resolve _ _⟩) (.check _) (.ok (some r)) =>
    if row' = row then some (.known r) else none
  | .answered (some ⟨row', .leading _⟩) (.geocode _ _) (.ok r) =>
    if row' = row ∧ r.matched then some (.led r) else none
  | .answered none (.submit _ rows) (.ok answers) =>
    if rows.any (·.id == row.index.repr) then
      ((answers.get? row.index.repr).filter (·.matched)).map .bulk
    else none
  | .started (some ⟨row', _⟩) (.store key r) => if row' = row then some (.stored key r) else none
  | _ => none

/-- What a run says of a row. -/
def notes (row : Row) (t : List Event) : List Note :=
  t.filterMap (note? row)

/-- The submissions of a run. -/
def submissions (t : List Event) : List (List Address) :=
  t.filterMap fun event => match event with
    | .started _ (.submit _ rows) => some rows
    | _ => none

@[simp] theorem notes_nil (row : Row) : notes row [] = [] := rfl

theorem notes_cons (row : Row) (event : Event) (t : List Event) :
    notes row (event :: t) = (note? row event).toList ++ notes row t := by
  unfold notes
  rw [List.filterMap_cons]
  cases note? row event <;> rfl

theorem notes_singleton (row : Row) (event : Event) : notes row [event] = (note? row event).toList := by
  rw [notes_cons, notes_nil, List.append_nil]

@[simp] theorem notes_append (row : Row) (t t' : List Event) :
    notes row (t ++ t') = notes row t ++ notes row t' :=
  List.filterMap_append

@[simp] theorem submissions_append (t t' : List Event) :
    submissions (t ++ t') = submissions t ++ submissions t' :=
  List.filterMap_append

/-- What is kept for a row with its resolution. -/
def keptNotes (e : Engine) (key : String) (r : Resolution) : List Note :=
  if e.caching then [.stored key r] else []

/-! ## Tasks -/

section Task

variable {row : Row} {stage : Stage} {log : List Event}

/-- The job of a log, if it has one. -/
def Event.owner : Event → Option Job
  | .begun j => some j
  | .started who _ | .answered who _ _ | .givenUp who _ | .brokenDown who _ => who

theorem Logs.owner {who : Option Job} {p : Task α} {a : α} (h : Logs who p log a) :
    ∀ event ∈ log, event.owner = who := by
  induction p generalizing log with
  | done a' =>
    obtain ⟨rfl, -⟩ := h
    simp
  | look next ih => exact ih false h
  | call c next ih =>
    obtain ⟨reply, t, -, rfl, h⟩ := h
    simp only [List.forall_mem_cons]
    exact ⟨rfl, rfl, ih reply h⟩

/-- A job says nothing of other rows than its own. -/
theorem note?_of_owner {event : Event} {j : Job} (howner : event.owner = some j) (hrow : j.row ≠ row) :
    note? row event = none := by
  unfold note?
  split
  all_goals try cases howner
  all_goals simp_all

/-- What is said of a row that was looked up. -/
def foundNotes : Stage → Option Resolution → List Note
  | .lookup, some r => [.hit r]
  | .resolve _ _, some r => [.known r]
  | _, _ => []

theorem logs_lookup {key : String} {outcome : Except Error (Option Resolution)}
    (h : Logs (some ⟨row, stage⟩) (e.lookup key) log outcome) :
    ∃ found, outcome = .ok found ∧ submissions log = [] ∧ notes row log = foundNotes stage found := by
  -- Nothing is said of a row that is not found, whatever is done about it.
  have hnothing : foundNotes stage none = [] := by cases stage <;> rfl
  unfold lookup at h
  split at h
  · obtain ⟨t₁, reply, t₂, rfl, hcall, hrest⟩ := Logs.bind h
    obtain ⟨hreply, rfl⟩ := hcall.guarded
    have hstart : note? row (.started (some ⟨row, stage⟩) (.check key)) = none := by cases stage <;> rfl
    cases reply with
    | ok found =>
      obtain ⟨rfl, rfl⟩ := hrest
      refine ⟨found, rfl, rfl, ?_⟩
      rw [List.append_nil, notes_cons, hstart, notes_singleton]
      cases found with
      | none => cases stage <;> rfl
      | some r =>
        cases stage with
        | lookup | resolve first prior => exact congrArg Option.toList (if_pos rfl)
        | _ => rfl
    | error error =>
      have hclear : error.isCancelled = false := by
        cases error <;> first | rfl | exact absurd rfl hreply
      simp only [hclear] at hrest
      obtain ⟨rfl, rfl⟩ := hrest
      refine ⟨none, rfl, rfl, ?_⟩
      rw [List.append_nil, notes_cons, notes_cons, hstart, hnothing]
      cases stage <;> rfl
  · obtain ⟨rfl, rfl⟩ := h
    exact ⟨none, rfl, rfl, hnothing.symm⟩

theorem logs_keep {key : String} {r : Resolution} (h : Logs (some ⟨row, stage⟩) (e.keep key r) log ()) :
    notes row log = e.keptNotes key r ∧ submissions log = [] := by
  unfold keep at h
  split at h
  next hcaching =>
    obtain ⟨t₁, reply, t₂, rfl, hcall, rfl, -⟩ := Logs.bind h
    obtain ⟨-, rfl⟩ := hcall.guarded
    have hstored : note? row (.started (some ⟨row, stage⟩) (.store key r)) = some (.stored key r) := if_pos rfl
    have hreply : note? row (.answered (some ⟨row, stage⟩) (.store key r) reply) = none := by
      cases stage <;> rfl
    exact ⟨by simp [notes_cons, hstored, hreply, keptNotes, hcaching], rfl⟩
  next hcaching =>
    obtain ⟨rfl, -⟩ := h
    exact ⟨by simp [keptNotes, hcaching], rfl⟩

/-- What is said of a row that providers have come to a resolution for. -/
def ledNotes : Stage → Resolution → List Note
  | .leading _, r => if r.matched then [.led r] else []
  | _, _ => []

/-- What asking providers says of a row: that one of them has matched it, if they are the leading ones. -/
theorem logs_askAll {a : Address} {providers : List (Provider × Nat)} {last : Option String}
    {outcome : Except Error Resolution}
    (h : Logs (some ⟨row, stage⟩) (askAll a providers last) log outcome) :
    ∃ r, outcome = .ok r ∧ submissions log = [] ∧
      notes row log = ledNotes stage r := by
  induction providers generalizing last log with
  | nil =>
    obtain ⟨rfl, rfl⟩ := h
    refine ⟨_, rfl, rfl, ?_⟩
    cases stage <;> rfl
  | cons provider rest ih =>
    obtain ⟨p, position⟩ := provider
    change Logs _ (if !p.available then _ else _) _ _ at h
    split at h
    · exact ih h
    · obtain ⟨t₁, reply, t₂, rfl, hcall, hrest⟩ := Logs.bind h
      obtain ⟨hreply, rfl⟩ := hcall.guarded
      have hstart : note? row (.started (some ⟨row, stage⟩) (.geocode position a)) = none := by
        cases stage <;> rfl
      -- Behind an answer that says nothing of the row, all there is to say comes from the other providers.
      have hlater : ∀ last', Logs (some ⟨row, stage⟩) (askAll a rest last') t₂ outcome →
          note? row (.answered (some ⟨row, stage⟩) (.geocode position a) reply) = none →
          ∃ r, outcome = .ok r ∧ submissions ([.started (some ⟨row, stage⟩) (.geocode position a),
              .answered (some ⟨row, stage⟩) (.geocode position a) reply] ++ t₂) = [] ∧
            notes row ([.started (some ⟨row, stage⟩) (.geocode position a),
              .answered (some ⟨row, stage⟩) (.geocode position a) reply] ++ t₂) = ledNotes stage r := by
        intro last' hlogs hnone
        obtain ⟨r, rfl, hsubmissions, hnotes⟩ := ih hlogs
        refine ⟨r, rfl, hsubmissions, ?_⟩
        rw [← hnotes, notes_append, notes_cons, notes_cons, hstart, hnone]
        rfl
      cases reply with
      | error error => exact hlater _ hrest (by cases stage <;> rfl)
      | ok r =>
        simp only at hrest
        split at hrest
        next hmatched =>
          obtain ⟨rfl, rfl⟩ := hrest
          refine ⟨r, rfl, rfl, ?_⟩
          rw [List.append_nil, notes_cons, notes_cons, hstart]
          cases stage with
          | leading stop => simp [note?, ledNotes, hmatched]
          | _ => rfl
        next hunmatched =>
          refine hlater _ hrest ?_
          cases stage with
          | leading stop => exact if_neg fun h => hunmatched h.2
          | _ => rfl

/-- What is said of a row that is taken up again, behind the note that it is: that it was kept, or that the
cache knew it. -/
theorem logs_resolve {a : Address} {first first' : Nat} {prior prior' : Option String}
    {outcome : Except Error Resolution}
    (h : Logs (some ⟨row, .resolve first' prior'⟩) (e.resolve a first prior) log outcome) :
    ∃ r, outcome = .ok r ∧ submissions log = [] ∧
      (notes row log = e.keptNotes a.key r ∨ notes row log = [.known r]) := by
  obtain ⟨t₁, found, t₂, rfl, hlookup, hrest⟩ := Logs.bind (p := e.lookup a.key) h
  obtain ⟨found, rfl, hsubmissions₁, hnotes₁⟩ := logs_lookup hlookup
  cases found with
  | some hit =>
    obtain ⟨rfl, rfl⟩ := hrest
    rw [List.append_nil]
    exact ⟨hit, rfl, hsubmissions₁, .inr hnotes₁⟩
  | none =>
    obtain ⟨t₃, outcome', t₄, rfl, hask, hrest⟩ := Logs.bind (p := e.cascade a first _ prior) hrest
    obtain ⟨r, rfl, hsubmissions₃, hnotes₃⟩ := logs_askAll hask
    obtain ⟨t₅, ⟨⟩, t₆, rfl, hkeep, rfl, rfl⟩ := Logs.bind (p := e.keep a.key r) hrest
    obtain ⟨hnotes₅, hsubmissions₅⟩ := logs_keep hkeep
    refine ⟨r, rfl, by simp [hsubmissions₁, hsubmissions₃, hsubmissions₅], .inl ?_⟩
    simp only [notes_append, hnotes₁, hnotes₃, hnotes₅, List.append_nil]
    rfl

end Task

/-! ## Jobs -/

/-- What a job says of its row, and its outcome. -/
def Told (e : Engine) (j : Job) (outcome : Outcome) (ns : List Note) : Prop :=
  match j.stage with
  | .lookup => ∃ found, outcome = .ok found ∧ ns = foundNotes .lookup found
  | .keep r => outcome = .ok none ∧ ns = e.keptNotes j.row.key r
  | .leading stop => ∃ r, outcome = .ok (some r) ∧ ns = ledNotes (.leading stop) r
  | .resolve _ _ => ∃ r, outcome = .ok (some r) ∧
      (ns = .rerun :: e.keptNotes j.row.key r ∨ ns = [.rerun, .known r])

theorem told_of_logs {j : Job} {log : List Event} {outcome : Outcome}
    (h : Logs (some j) (e.task j) log outcome) :
    e.Told j outcome (notes j.row (.begun j :: log)) ∧ submissions log = [] := by
  obtain ⟨row, stage⟩ := j
  rw [notes_cons]
  cases stage with
  | lookup =>
    obtain ⟨found, rfl, hsubmissions, hnotes⟩ := logs_lookup h
    exact ⟨⟨found, rfl, hnotes⟩, hsubmissions⟩
  | keep r =>
    obtain ⟨t₁, ⟨⟩, t₂, rfl, hkeep, rfl, rfl⟩ := Logs.bind (p := e.keep row.key r) h
    rw [List.append_nil]
    obtain ⟨hnotes, hsubmissions⟩ := logs_keep hkeep
    exact ⟨⟨rfl, hnotes⟩, hsubmissions⟩
  | leading stop =>
    obtain ⟨t₁, found, t₂, rfl, hask, rfl, rfl⟩ := Logs.bind (p := e.cascade row.address 0 stop none) h
    rw [List.append_nil]
    obtain ⟨r, rfl, hsubmissions, hnotes⟩ := logs_askAll hask
    exact ⟨⟨r, rfl, hnotes⟩, hsubmissions⟩
  | resolve first prior =>
    obtain ⟨t₁, found, t₂, rfl, hresolve, rfl, rfl⟩ := Logs.bind (p := e.resolve row.address first prior) h
    rw [List.append_nil]
    obtain ⟨r, rfl, hsubmissions, hnotes⟩ := logs_resolve hresolve
    -- That the job has begun is what says that the row is taken up again.
    have hbegun : note? row (.begun ⟨row, .resolve first prior⟩) = some .rerun := if_pos rfl
    rw [hbegun]
    refine ⟨⟨r, rfl, hnotes.imp ?_ ?_⟩, hsubmissions⟩
    · intro h
      rw [h]
      rfl
    · intro h
      rw [h]
      rfl

/-- A job of a pool tells of its row, of no other, and submits nothing. -/
theorem Ran.Fits.told {d : Ran} (h : d.Fits e (.inr d.job)) :
    e.Told d.job d.outcome (notes d.job.row d.log) ∧ submissions d.log = [] ∧
      ∀ row, row ≠ d.job.row → notes row d.log = [] := by
  obtain ⟨-, log, hlog, hlogs⟩ := h
  obtain ⟨htold, hsubmissions⟩ := told_of_logs hlogs
  rw [hlog]
  refine ⟨htold, hsubmissions, ?_⟩
  intro row hrow
  refine List.filterMap_eq_nil_iff.2 fun event hevent => note?_of_owner (j := d.job) ?_ hrow.symm
  rcases List.mem_cons.1 hevent with rfl | hevent
  · rfl
  · exact hlogs.owner event hevent

/-! ## Pools -/

/-- What a pool with one job for each of its rows tells: of every row what its job tells. -/
structure PoolTold (e : Engine) (jobs : List Job) (t : List Event) (results : List (Row × Outcome)) :
    Prop where
  rows : (results.map Prod.fst).Perm (jobs.map Job.row)
  told : ∀ w ∈ results, ∃ j ∈ jobs, j.row = w.1 ∧ ∃ ns, (notes w.1 t).Perm ns ∧ e.Told j w.2 ns
  others : ∀ row ∉ jobs.map Job.row, notes row t = []
  submissions : submissions t = []

/-- Of lists that are empty but for one, only that one counts. -/
theorem flatMap_eq_of_nodup {γ δ κ : Type} {l : List γ} {key : γ → κ} {f : γ → List δ}
    (hl : (l.map key).Nodup) {a : γ} (ha : a ∈ l) (h : ∀ b ∈ l, key b ≠ key a → f b = []) :
    l.flatMap f = f a := by
  induction l with
  | nil => cases ha
  | cons b l ih =>
    rw [List.map_cons, List.nodup_cons] at hl
    rw [List.flatMap_cons]
    rcases List.mem_cons.1 ha with rfl | hmem
    · have hrest : l.flatMap f = [] := List.flatMap_eq_nil_iff.2 fun c hc =>
        h c (List.mem_cons_of_mem _ hc) fun heq => hl.1 (heq ▸ List.mem_map_of_mem hc)
      rw [hrest, List.append_nil]
    · have hb : key b ≠ key a := fun heq => hl.1 (heq ▸ List.mem_map_of_mem hmem)
      rw [h b List.mem_cons_self hb, List.nil_append]
      exact ih hl.2 hmem fun c hc => h c (List.mem_cons_of_mem _ hc)

theorem Pool.Logs.told {crew : Crew} {jobs : List Job} {t : List Event} {results : List (Row × Outcome)}
    (h : Pool.Logs e { crew, pending := jobs } t results) (hrows : (jobs.map Job.row).Nodup) :
    e.PoolTold jobs t results := by
  obtain ⟨ran, hjobs, hfits, ht, rfl⟩ := h.all_ran
  have hnodup : (ran.map fun d => d.job.row).Nodup := by
    have hperm := (hjobs.map Job.row).nodup_iff.2 hrows
    rwa [List.map_map] at hperm
  -- Mingled logs are a permutation of the logs one after the other, and so are the notes in them.
  have hnotes : ∀ row, (notes row t).Perm (ran.flatMap fun d => notes row d.log) := by
    intro row
    have hperm := ht.filterMap (note? row)
    rwa [List.filterMap_flatMap] at hperm
  have htold := fun d hd => (hfits d hd).told
  constructor
  case rows =>
    have hperm := hjobs.map Job.row
    rwa [List.map_map] at hperm ⊢
  case told =>
    intro w hw
    obtain ⟨d, hd, rfl⟩ := List.mem_map.1 hw
    refine ⟨d.job, hjobs.subset (List.mem_map_of_mem hd), rfl, _, ?_, (htold d hd).1⟩
    -- Of all logs only that of the job of the row says anything of it.
    rw [← flatMap_eq_of_nodup (f := fun d' => notes d.job.row d'.log) hnodup hd
      fun d' hd' hne => (htold d' hd').2.2 _ (Ne.symm hne)]
    exact hnotes d.job.row
  case others =>
    intro row hrow
    refine List.Perm.eq_nil ((hnotes row).trans (.of_eq (List.flatMap_eq_nil_iff.2 ?_)))
    intro d hd
    refine (htold d hd).2.2 row fun heq => hrow ?_
    rw [heq]
    exact List.mem_map_of_mem (hjobs.subset (List.mem_map_of_mem hd))
  case submissions =>
    have hperm : (Engine.submissions t).Perm _ := ht.filterMap _
    rw [List.filterMap_flatMap] at hperm
    exact List.Perm.eq_nil (hperm.trans (.of_eq (List.flatMap_eq_nil_iff.2 fun d hd => (htold d hd).2.1)))

/-- Every job of a pool brings an outcome. -/
theorem PoolTold.of_mem {jobs : List Job} {t : List Event} {results : List (Row × Outcome)}
    (h : e.PoolTold jobs t results) (hrows : (jobs.map Job.row).Nodup) {j : Job} (hj : j ∈ jobs) :
    ∃ outcome ns, (j.row, outcome) ∈ results ∧ (notes j.row t).Perm ns ∧ e.Told j outcome ns := by
  obtain ⟨w, hw, hrow⟩ := List.mem_map.1 (h.rows.mem_iff.2 (List.mem_map_of_mem hj))
  obtain ⟨j', hj', hrow', ns, hns, htold⟩ := h.told w hw
  obtain rfl : j' = j := List.inj_on_of_nodup_map hrows hj' hj (hrow'.trans hrow)
  exact ⟨w.2, ns, hrow ▸ hw, hrow ▸ hns, htold⟩

end Geocoding.Engine
