import Geocoding.Proofs.Cascade
import Geocoding.Proofs.Interleaving.Assurance
import Geocoding.Proofs.Rows

/-!
# The calls of the engine

What is permitted and expected of the calls about one address, or about the rows of a batch, settles what tasks and
plans of the engine assure: no other calls than those are made, a batch has a slot for every row, and a row that no
reply calls a match ends as none.
-/

namespace Geocoding

namespace Engine

/-- The addresses that a provider is called about. -/
def Call.about : Call → List Address
  | .geocode _ a => [a]
  | .submit _ rows => rows
  | .check _ | .store .. => []

/-! ## Outcomes that are no matches -/

/-- An outcome is no match, where it is to be none. -/
def NoMatch (quiet : Prop) (o : Except Error Resolution) : Prop :=
  quiet → ∀ r, o = .ok r → r.matched = false

/-- What is permitted and expected of the calls about an address; where it is to be no match, no reply says that
it is one. -/
structure Terms.About (T : Terms) (e : Engine) (who : Option Job) (a : Address) (quiet : Prop) : Prop where
  geocode : ∀ position < e.providers.length, T.permits who (.geocode position a)
  check : T.permits who (.check a.key)
  store : ∀ r, T.permits who (.store a.key r)
  noMatch : ∀ position reply, T.expects who (.geocode position a) reply → NoMatch quiet reply
  noHit : quiet → ∀ hit, ¬ T.expects who (.check a.key) (.ok (some hit))

section Task

variable {e : Engine} {T : Terms} {who : Option Job} {a : Address} {quiet : Prop}

theorem assures_lookup (hT : T.About e who a quiet) :
    Assures T who (fun o => quiet → ∀ hit, o ≠ .ok (some hit)) (e.lookup a.key) := by
  unfold lookup
  split
  · refine ((assures_guarded hT.check).mono fun reply hreply => ?_).bind
    cases reply with
    | ok found =>
      rintro hquiet hit ⟨⟩
      exact hT.noHit hquiet hit hreply
    | error error =>
      intro _ hit
      cases error.isCancelled <;> rintro ⟨⟩
  · rintro _ hit ⟨⟩

theorem assures_keep (hT : T.About e who a quiet) (r : Resolution) :
    Assures T who (fun _ => True) (e.keep a.key r) := by
  unfold keep
  split
  · exact ((assures_guarded (hT.store r)).mono fun _ _ => trivial).bind
  · trivial

theorem assures_askAll (hT : T.About e who a quiet) {providers : List (Provider × Nat)}
    (hproviders : ∀ q ∈ providers, q.2 < e.providers.length) (last : Option String) :
    Assures T who (NoMatch quiet) (askAll a providers last) := by
  have hcancelled : NoMatch quiet (.error .cancelled) := by rintro _ r ⟨⟩
  induction providers generalizing last with
  | nil =>
    rintro (_ | _)
    · rintro _ r ⟨⟩
      rfl
    · exact hcancelled
  | cons provider rest ih =>
    obtain ⟨p, position⟩ := provider
    obtain ⟨hposition, hrest⟩ := List.forall_mem_cons.1 hproviders
    rintro (_ | _)
    · change Assures T who (NoMatch quiet) (if !p.available then _ else _)
      split
      · exact ih hrest last
      · refine ((assures_guarded (hT.geocode position hposition)).mono fun reply hreply => ?_).bind
        cases reply with
        | error error => exact ih hrest _
        | ok r =>
          simp only
          split
          · exact hT.noMatch position _ hreply
          · exact ih hrest _
    · exact hcancelled

theorem position_lt_of_mem_span {first stop : Nat} {q : Provider × Nat} (h : q ∈ e.span first stop) :
    q.2 < e.providers.length :=
  (List.getElem?_eq_some_iff.1 (e.mem_span h).1).1

theorem assures_cascade (hT : T.About e who a quiet) (first stop : Nat) (prior : Option String) :
    Assures T who (NoMatch quiet) (e.cascade a first stop prior) :=
  assures_askAll hT (fun _ => position_lt_of_mem_span) prior

theorem assures_resolve (hT : T.About e who a quiet) (first : Nat) (prior : Option String) :
    Assures T who (NoMatch quiet) (e.resolve a first prior) := by
  rintro (_ | _)
  · refine ((assures_lookup hT).mono fun found hfound => ?_).bind
    match found with
    | .error error => rintro _ r ⟨⟩
    | .ok (some hit) => exact fun hquiet => absurd rfl (hfound hquiet hit)
    | .ok none =>
      refine ((assures_cascade hT first e.providers.length prior).mono fun o ho => ?_).bind
      cases o with
      | error error => exact ho
      | ok r => exact ((assures_keep hT r).mono fun _ _ => ho).bind
  · rintro _ r ⟨⟩

theorem assures_task {j : Job} (hT : T.About e (some j) j.row.address quiet) :
    Assures T (some j) (fun o => quiet → ∀ r, o = .ok (some r) → r.matched = false) (e.task j) := by
  have hsome : ∀ {p : Task (Except Error Resolution)}, Assures T (some j) (NoMatch quiet) p →
      Assures T (some j) (fun o => quiet → ∀ r, o = .ok (some r) → r.matched = false)
        (p.bind fun o => .done (o.map some)) := by
    refine fun hp => (hp.mono fun o ho hquiet r hr => ?_).bind
    cases o with
    | error error => cases hr
    | ok r' =>
      cases hr
      exact ho hquiet r rfl
  unfold task
  split
  · exact (assures_lookup hT).mono fun o ho hquiet r hr => absurd hr (ho hquiet r)
  · refine ((assures_keep hT _).mono fun _ _ => ?_).bind
    rintro _ r ⟨⟩
  · exact hsome (assures_cascade hT _ _ _)
  · exact hsome (assures_resolve hT _ _)

end Task

/-! ## Rows -/

/-- What is written is for some rows, and no match for those that are to be none. -/
def WritesNoMatch (rows : List Row) (spared : Row → Prop) (writes : List (Row × Resolution)) : Prop :=
  ∀ w ∈ writes, w.1 ∈ rows ∧ (spared w.1 → w.2.matched = false)

/-- What is permitted and expected of the calls of a batch, where some rows are to be no matches. -/
structure Terms.AboutRows (T : Terms) (e : Engine) (rows : List Row) (spared : Row → Prop) : Prop where
  jobs : ∀ j, j.row ∈ rows → T.About e (some j) j.row.address (spared j.row)
  submit : ∀ position < e.providers.length, ∀ chunk ⊆ rows, T.permits none (.submit position (chunk.map submitted))
  noMatch : ∀ position chunk answers, chunk ⊆ rows →
    T.expects none (.submit position (chunk.map submitted)) (.ok answers) →
    ∀ row ∈ rows, spared row → ∀ r, answers.get? row.index.repr = some r → r.matched = false

section Batch

variable {e : Engine} {T : Terms} {rows : List Row} {spared : Row → Prop} {writes writes' : List (Row × Resolution)}

theorem WritesNoMatch.append (h : WritesNoMatch rows spared writes) (h' : WritesNoMatch rows spared writes') :
    WritesNoMatch rows spared (writes ++ writes') :=
  List.forall_mem_append.2 ⟨h, h'⟩

theorem WritesNoMatch.subset (h : WritesNoMatch rows spared writes) (hsub : writes' ⊆ writes) :
    WritesNoMatch rows spared writes' :=
  fun w hw => h w (hsub hw)

theorem without_subset (rows : List Row) (results : List (Row × Resolution)) : without rows results ⊆ rows :=
  fun _ h => (List.mem_filter.1 h).1

/-- Jobs of the rows bring what may be written. -/
theorem assures_pool (hT : T.AboutRows e rows spared) (crew : Crew) {jobs : List Job}
    (hjobs : ∀ j ∈ jobs, j.row ∈ rows) :
    (Plan.pool crew jobs .done).Assures e T fun results => WritesNoMatch rows spared (resolved results) := by
  refine ⟨_, fun j hj => assures_task (hT.jobs j (hjobs j hj)), fun results hresults => ?_⟩
  rintro ⟨row, r⟩ hw
  obtain ⟨j, hj, rfl, hnomatch⟩ := hresults _ (mem_resolved.1 hw)
  exact ⟨hjobs j hj, fun hspared => hnomatch hspared r rfl⟩

theorem assures_finish (hT : T.AboutRows e rows spared) {jobs : List Job} (hjobs : ∀ j ∈ jobs, j.row ∈ rows) :
    (Plan.finish jobs).Assures e T (WritesNoMatch rows spared) := by
  obtain ⟨spec, hspec, hresults⟩ := assures_pool (e := e) hT .workers hjobs
  exact ⟨spec, hspec, hresults⟩

theorem assures_keepAll (hT : T.AboutRows e rows spared) (hwrites : WritesNoMatch rows spared writes) :
    (keepAll writes).Assures e T fun _ => True := by
  refine (Plan.Assures.mono (assures_pool hT .itself fun j hj => ?_) fun _ _ => trivial).bind
  obtain ⟨w, hw, rfl⟩ := List.mem_map.1 hj
  exact (hwrites w hw).1

theorem settleRow_noMatch (b : BulkProvider) (priors : List (Nat × String)) {answers : Answers} {chunk : List Row}
    (hchunk : chunk ⊆ rows)
    (hanswers : ∀ row ∈ rows, spared row → ∀ r, answers.get? row.index.repr = some r → r.matched = false) :
    WritesNoMatch rows spared (resultsIn (chunk.map (settleRow b priors answers))) ∧
      ∀ j ∈ jobsIn (chunk.map (settleRow b priors answers)), j.row ∈ rows := by
  constructor
  · intro w hw
    obtain ⟨row, hrow, hsettled⟩ := List.mem_map.1 (mem_resultsIn.1 hw)
    unfold settleRow at hsettled
    split at hsettled
    next r hget =>
      split at hsettled
      next hmatched =>
        cases hsettled
        exact ⟨hchunk hrow, fun hspared => hanswers row (hchunk hrow) hspared r hget⟩
      next => cases hsettled
    next => cases hsettled
  · intro j hj
    obtain ⟨row, hrow, hsettled⟩ := List.mem_map.1 (mem_jobsIn.1 hj)
    unfold settleRow at hsettled
    split at hsettled
    · split at hsettled
      · cases hsettled
      · cases hsettled
        exact hchunk hrow
    · cases hsettled
      exact hchunk hrow

/-- Chunks that are submitted settle nothing wrong, and leave jobs of their rows. -/
theorem assures_submitAll (hT : T.AboutRows e rows spared) {b : BulkProvider}
    (hb : b.position < e.providers.length) (priors : List (Nat × String))
    {chunks : List (List Row)} (hchunks : ∀ chunk ∈ chunks, chunk ⊆ rows) :
    (submitAll b priors chunks).Assures e T fun settled =>
      WritesNoMatch rows spared settled.1.results ∧ ∀ j ∈ settled.1.leftovers, j.row ∈ rows := by
  induction chunks with
  | nil => exact ⟨by rintro w ⟨⟩, by rintro j ⟨⟩⟩
  | cons chunk chunks ih =>
    obtain ⟨hchunk, hrest⟩ := List.forall_mem_cons.1 hchunks
    -- A run that is called off here settles none of the chunks that are left.
    have hcut : WritesNoMatch rows spared ({} : Settled).results ∧ ∀ j ∈ ({} : Settled).leftovers, j.row ∈ rows :=
      ⟨by rintro w ⟨⟩, by rintro j ⟨⟩⟩
    rintro (_ | _)
    · refine Plan.Assures.bind (p := .ofTask (Program.guarded collaborators _))
        (.ofTask ((assures_guarded (hT.submit b.position hb chunk hchunk)).mono fun reply hreply => ?_))
      cases reply with
      | error error =>
        simp only
        split
        · exact hcut
        · refine Plan.Assures.bind ((ih hrest).mono fun rest hsettled => ⟨hsettled.1, ?_⟩)
          refine List.forall_mem_append.2 ⟨fun j hj => ?_, hsettled.2⟩
          obtain ⟨row, hrow, rfl⟩ := List.mem_map.1 hj
          exact hchunk hrow
      | ok answers =>
        obtain ⟨hresults, hjobs⟩ := settleRow_noMatch b priors hchunk
          (hT.noMatch b.position chunk answers hchunk hreply)
        refine Plan.Assures.bind ((assures_keepAll hT hresults).mono fun _ _ => ?_)
        exact Plan.Assures.bind ((ih hrest).mono fun rest hsettled =>
          ⟨hresults.append hsettled.1, List.forall_mem_append.2 ⟨hjobs, hsettled.2⟩⟩)
    · exact hcut

theorem assures_submitRows (hT : T.AboutRows e rows spared) {b : BulkProvider}
    (hb : b.position < e.providers.length) (priors : List (Nat × String))
    {left : List Row} (hleft : left ⊆ rows) :
    (e.submitRows b priors left).Assures e T (WritesNoMatch rows spared) := by
  have hchunks : ∀ chunk ∈ chunksOf (e.submissionSize b - 1) left, chunk ⊆ rows := by
    intro chunk hchunk row hrow
    apply hleft
    rw [← flatten_chunksOf (e.submissionSize b - 1) left]
    exact List.mem_flatten_of_mem hchunk hrow
  refine Plan.Assures.bind ((assures_submitAll hT hb priors hchunks).mono fun settled hsettled => ?_)
  obtain ⟨settled, completed⟩ := settled
  cases completed with
  | false => exact hsettled.1
  | true =>
    exact Plan.Assures.bind ((assures_finish hT hsettled.2).mono fun later hlater => hsettled.1.append hlater)

theorem assures_leadAndSubmit (hT : T.AboutRows e rows spared) {b : BulkProvider}
    (hb : b.position < e.providers.length) {left : List Row} (hleft : left ⊆ rows) :
    (e.leadAndSubmit b left).Assures e T (WritesNoMatch rows spared) := by
  unfold leadAndSubmit
  split
  · refine Plan.Assures.bind ((assures_finish hT fun j hj => ?_).mono fun results hresults => ?_)
    · obtain ⟨row, hrow, rfl⟩ := List.mem_map.1 hj
      exact hleft hrow
    · have hanswered : WritesNoMatch rows spared (results.filter (·.2.matched)) :=
        hresults.subset (List.filter_subset_self results)
      refine Plan.Assures.bind ((assures_keepAll hT hanswered).mono fun _ _ => ?_)
      rintro (_ | _)
      · have hrest : without left (results.filter (·.2.matched)) ⊆ rows :=
          fun row hrow => hleft (without_subset _ _ hrow)
        exact Plan.Assures.bind (p := e.submitRows b (priorsOf results) _)
          ((assures_submitRows hT hb _ hrest).mono fun later hlater => hanswered.append hlater)
      · exact hanswered
  · exact assures_submitRows hT hb _ hleft

theorem assures_bulkBy (hT : T.AboutRows e rows spared) {b : BulkProvider} (hb : b.position < e.providers.length) :
    (e.bulkBy b rows).Assures e T (WritesNoMatch rows spared) := by
  refine Plan.Assures.bind ((assures_pool hT .itself fun j hj => ?_).mono fun probes hprobes => ?_)
  · obtain ⟨row, hrow, rfl⟩ := List.mem_map.1 hj
    exact hrow
  · have hhits : WritesNoMatch rows spared (hitsIn probes) :=
      hprobes.subset (List.filterMap_subset _ (List.takeWhile_subset _))
    split
    · exact hhits
    · exact Plan.Assures.bind ((assures_leadAndSubmit hT hb (without_subset _ _)).mono
        fun later hlater => hhits.append hlater)

end Batch

section Slots

variable {size i : Nat} {writes : List (Row × Resolution)} {P : Resolution → Prop}

/-- A slot has what was written into it, or the default. -/
theorem fill_of_forall (hdefault : P {}) (h : ∀ w ∈ writes, w.1.index = i → P w.2) {slot : Resolution}
    (hslot : (fill size writes)[i]? = some slot) : P slot := by
  have hfold : ∀ slots : Array Resolution, (∀ slot, slots[i]? = some slot → P slot) →
      ∀ slot, (writes.foldl (fun slots w => slots.setIfInBounds w.1.index w.2) slots)[i]? = some slot → P slot := by
    clear hslot
    induction writes with
    | nil => exact fun slots hslots => hslots
    | cons w writes ih =>
      intro slots hslots
      refine ih (fun w hw => h w (List.mem_cons_of_mem _ hw)) _ fun slot hslot => ?_
      rw [Array.getElem?_setIfInBounds] at hslot
      split at hslot
      next hindex =>
        split at hslot
        · exact Option.some.inj hslot ▸ h w List.mem_cons_self hindex
        · cases hslot
      next => exact hslots slot hslot
  refine hfold (Array.replicate size {}) (fun slot hslot => ?_) slot (by simpa [fill] using hslot)
  rw [Array.getElem?_replicate] at hslot
  split at hslot
  · exact Option.some.inj hslot ▸ hdefault
  · cases hslot

end Slots

/-- The results of a batch have a slot for every row, and those of the spared rows are no matches. -/
def Spares (rows : List Row) (spared : Row → Prop) (results : List Resolution) : Prop :=
  results.length = rows.length ∧ ∀ row ∈ rows, spared row → ∃ r, results[row.index]? = some r ∧ r.matched = false

theorem WritesNoMatch.spares {addresses : List Address} {spared : Row → Prop} {writes : List (Row × Resolution)}
    (h : WritesNoMatch (rowsOf addresses) spared writes) :
    Spares (rowsOf addresses) spared (fill (rowsOf addresses).length writes) := by
  refine ⟨length_fill _ _, fun row hrow hspared => ?_⟩
  have hlt : row.index < (fill (rowsOf addresses).length writes).length := by
    rw [length_fill, length_rowsOf]
    exact (List.getElem?_eq_some_iff.1 (mem_rowsOf.1 hrow)).1
  refine ⟨_, List.getElem?_eq_getElem hlt, ?_⟩
  refine fill_of_forall (P := fun r => r.matched = false) rfl (fun w hw hindex => ?_) (List.getElem?_eq_getElem hlt)
  obtain rfl := eq_of_index_eq (nodup_index_rowsOf addresses) (h w hw).1 hrow hindex
  exact (h w hw).2 hspared

section Runs

variable {e : Engine} {T : Terms} {addresses : List Address} {spared : Row → Prop}

theorem assures_batch (hT : T.AboutRows e (rowsOf (Address.assignIds addresses)) spared) :
    (e.batch addresses).Assures e T (Spares (rowsOf (Address.assignIds addresses)) spared) := by
  refine Plan.Assures.bind ((assures_finish hT fun j hj => ?_).mono fun writes hwrites => hwrites.spares)
  obtain ⟨row, hrow, rfl⟩ := List.mem_map.1 hj
  exact hrow

theorem assures_bulk (hT : T.AboutRows e (rowsOf (Address.assignIds addresses)) spared) :
    (e.bulk addresses).Assures e T (Spares (rowsOf (Address.assignIds addresses)) spared) := by
  unfold bulk
  split
  next => exact assures_batch hT
  next b hb =>
    exact Plan.Assures.bind ((assures_bulkBy hT (position_lt_of_bulkProvider? hb)).mono
      fun writes hwrites => hwrites.spares)

end Runs

end Engine

end Geocoding
