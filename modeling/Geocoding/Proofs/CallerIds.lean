import Geocoding.Proofs.Coupled
import Geocoding.Proofs.Rows
import Geocoding.Proofs.Steady.Memory
import Geocoding.Setup

/-!
# The ids of callers

Rows are told apart by their positions: they are submitted under them, and answered by them. So the ids that
callers give to their addresses, equal or not, blank or numbers that stand for other rows, go no further than to
the providers that are asked about single addresses. As long as these ignore them, all that a run does is the
same whatever the ids are.
-/

namespace Geocoding

theorem Address.eq_withId_of_parts {a a' : Address} (h : a.parts = a'.parts) : a' = a.withId a'.id := by
  obtain ⟨id, street, city, state, zip⟩ := a
  obtain ⟨id', street', city', state', zip'⟩ := a'
  simp only [parts, List.cons.injEq] at h
  obtain ⟨rfl, rfl, rfl, rfl, -⟩ := h
  rfl

namespace Engine

variable {α β σ : Type}

/-- Lookups of single addresses do not depend on their ids. -/
structure Setting.IgnoresIds (k : Setting σ) : Prop where
  start : ∀ position a id s,
    k.world.start (.geocode position (a.withId id)) s = k.world.start (.geocode position a) s
  finish : ∀ position a id s,
    k.world.finish (.geocode position (a.withId id)) s = k.world.finish (.geocode position a) s
  abandon : ∀ position a id s,
    k.world.abandon (.geocode position (a.withId id)) s = k.world.abandon (.geocode position a) s

/-! ## Without ids -/

/-- The job of a row without its id. -/
def Job.anonymous (j : Job) : Job :=
  j.onRow fun row => ⟨row.index, row.address.withId ""⟩

/-- The call without the id of its address. Submissions keep the ids of theirs. -/
def Call.anonymous : Call → Call
  | .geocode position a => .geocode position (a.withId "")
  | c => c

/-- An event without the ids of callers. -/
def Event.anonymous : Event → Event
  | .begun j => .begun j.anonymous
  | .started who c => .started (who.map Job.anonymous) c.anonymous
  | .answered who (.geocode position a) reply =>
    .answered (who.map Job.anonymous) (.geocode position (a.withId "")) reply
  | .answered who c reply => .answered (who.map Job.anonymous) c reply
  | .givenUp who c => .givenUp (who.map Job.anonymous) c.anonymous
  | .brokenDown who c => .brokenDown (who.map Job.anonymous) c.anonymous

/-! ## Tasks -/

/-- Tasks that differ only in the ids of the addresses they ask about. -/
inductive Renamed : Task α → Task α → Prop
  | done (a : α) : Renamed (.done a) (.done a)
  | look {next next' : Bool → Task α} (h : ∀ fired, Renamed (next fired) (next' fired)) :
      Renamed (.look next) (.look next')
  | geocode (position : Nat) (a : Address) (id : String) {next next' : Except Error Resolution → Task α}
      (h : ∀ reply, Renamed (next reply) (next' reply)) :
      Renamed (.call (.geocode position a) next) (.call (.geocode position (a.withId id)) next')
  | call (c : Call) {next next' : collaborators.Reply c → Task α} (h : ∀ reply, Renamed (next reply) (next' reply)) :
      Renamed (.call c next) (.call c next')

/-- Tasks under way that differ only in ids. -/
inductive Strand.Renamed : Strand α → Strand α → Prop
  | ready {p p' : Task α} (h : Engine.Renamed p p') : Renamed (.ready p) (.ready p')
  | waiting {c c' : Call} {next : collaborators.Reply c → Task α} {next' : collaborators.Reply c' → Task α}
      (h : Engine.Renamed (.call c next) (.call c' next')) : Renamed (.waiting c next) (.waiting c' next')

namespace Renamed

variable {p p' : Task α}

theorem refl (p : Task α) : Renamed p p := by
  induction p with
  | done a => exact .done a
  | look next ih => exact .look ih
  | call c next ih => exact .call c ih

theorem bind {f f' : α → Task β} (h : Renamed p p') (hf : ∀ a, Renamed (f a) (f' a)) :
    Renamed (p.bind f) (p'.bind f') := by
  induction h with
  | done a => exact hf a
  | look _ ih => exact .look ih
  | geocode position a id _ ih => exact .geocode position a id ih
  | call c _ ih => exact .call c ih

theorem isCall (h : Renamed p p') : p'.isCall = p.isCall := by
  cases h <;> rfl

theorem looked (h : Renamed p p') (fired : Bool) : Renamed (p.looked fired) (p'.looked fired) := by
  cases h with
  | done a => exact .done a
  | look h => exact h fired
  | geocode position a id h => exact .geocode position a id h
  | call c h => exact .call c h

theorem guarded (position : Nat) (a : Address) (id : String) {f f' : Except Error Resolution → Task α}
    (h : ∀ reply, Renamed (f reply) (f' reply)) :
    Renamed ((Program.guarded collaborators (.geocode position a)).bind f)
      ((Program.guarded collaborators (.geocode position (a.withId id))).bind f') :=
  .look fun fired => match fired with
    | true => h _
    | false => .geocode position a id h

theorem askAll (a : Address) (id : String) (providers : List (Provider × Nat)) (last : Option String) :
    Renamed (Engine.askAll a providers last) (Engine.askAll (a.withId id) providers last) := by
  induction providers generalizing last with
  | nil => exact .refl _
  | cons provider rest ih =>
    obtain ⟨p, position⟩ := provider
    refine .look fun fired => ?_
    cases fired with
    | true => exact .done _
    | false =>
      simp only
      split
      · exact ih last
      · refine .guarded position a id fun reply => ?_
        cases reply with
        | error error => exact ih _
        | ok r =>
          simp only
          split
          · exact .done _
          · exact ih _

theorem resolve (e : Engine) (a : Address) (id : String) (first : Nat) (prior : Option String) :
    Renamed (e.resolve a first prior) (e.resolve (a.withId id) first prior) := by
  refine .look fun fired => ?_
  cases fired with
  | true => exact .done _
  | false =>
    rw [Address.key_withId]
    refine (Renamed.refl (e.lookup a.key)).bind fun found => ?_
    match found with
    | .error error => exact .done _
    | .ok (some hit) => exact .done _
    | .ok none => exact (askAll a id _ prior).bind fun outcome => .refl _

end Renamed

/-- The row of an address under another id. -/
def Row.renamed (ids : Nat → String) (row : Row) : Row :=
  ⟨row.index, row.address.withId (ids row.index)⟩

theorem renamed_task (e : Engine) (ids : Nat → String) (j : Job) :
    Renamed (e.task j) (e.task (j.onRow (Row.renamed ids))) := by
  obtain ⟨⟨index, a⟩, stage⟩ := j
  cases stage with
  | lookup =>
    simp only [task, Job.onRow, Row.renamed, Row.key, Address.key_withId]
    exact .refl _
  | keep r =>
    simp only [task, Job.onRow, Row.renamed, Row.key, Address.key_withId]
    exact .refl _
  | leading stop => exact (Renamed.askAll a _ _ none).bind fun _ => .refl _
  | resolve first prior => exact (Renamed.resolve e a _ first prior).bind fun _ => .refl _

theorem Event.anonymous_answered {who who' : Option Job} (hwho : who'.map Job.anonymous = who.map Job.anonymous)
    (c : Call) (reply : collaborators.Reply c) :
    Event.anonymous (.answered who' c reply) = Event.anonymous (.answered who c reply) := by
  cases c <;> simp [Event.anonymous, hwho]

section Steps

variable {k : Setting σ} {who who' : Option Job} {s s₁ : σ} {t : List Event}

/-- Each step of a task is one of a task that differs in ids only. -/
theorem Strand.Renamed.step (hk : k.IgnoresIds) (hwho : who'.map Job.anonymous = who.map Job.anonymous)
    {strand strand' strand₁ : Strand α} (h : strand.Renamed strand') (step : strand.Step k who s t strand₁ s₁) :
    ∃ t' strand₁' s₁', strand'.Step k who' s t' strand₁' s₁' ∧ strand₁.Renamed strand₁' ∧ s₁ = s₁' ∧
      t'.map Event.anonymous = t.map Event.anonymous := by
  cases step with
  | look hcall =>
    cases h with
    | ready h =>
      cases h with
      | look h => exact ⟨[], _, s, .look ((h _).isCall.trans hcall), .ready (h _), rfl, rfl⟩
  | start hp =>
    cases h with
    | @ready _ p' h =>
      have hlooked := h.looked (k.world.fired s)
      rw [hp] at hlooked
      generalize hp' : p'.looked (k.world.fired s) = q' at hlooked
      cases hlooked with
      | geocode position a id h =>
        have hs := congrArg Prod.snd (hk.start position a id s).symm
        exact ⟨_, _, _, .start hp', .waiting (.geocode position a id h), hs,
          by simp [Event.anonymous, hwho, Call.anonymous, Address.withId]⟩
      | call _ h => exact ⟨_, _, _, .start hp', .waiting (.call _ h), rfl, by simp [Event.anonymous, hwho]⟩
  | @finish c next reply _ _ hfinish =>
    cases h with
    | waiting h =>
      cases h with
      | geocode position a id h =>
        exact ⟨_, _, s₁, .finish ((hk.finish position a id s).trans hfinish), .ready (h reply), rfl,
          by simp [Event.anonymous, hwho, Address.withId]⟩
      | call _ h =>
        exact ⟨_, _, s₁, .finish hfinish, .ready (h reply), rfl, by simp [Event.anonymous_answered hwho]⟩
  | giveUp hfired =>
    cases h with
    | waiting h =>
      cases h with
      | geocode position a id h =>
        exact ⟨_, _, _, .giveUp hfired, .ready (h _), (hk.abandon position a id s).symm,
          by simp [Event.anonymous, hwho, Call.anonymous, Address.withId]⟩
      | call _ h => exact ⟨_, _, _, .giveUp hfired, .ready (h _), rfl, by simp [Event.anonymous, hwho]⟩

end Steps

/-- Runs for rows under other ids follow each other. -/
def renamed (e : Engine) {k : Setting σ} (hk : k.IgnoresIds) (ids : Nat → String) : Coupling e e k where
  near := Eq
  row := Row.renamed ids
  shown event := some event.anonymous
  keeps _ := Strand.Renamed
  providers := rfl
  concurrency := rfl
  chunkSize := rfl
  index _ := rfl
  submitted _ := rfl
  fired := by rintro _ _ rfl; rfl
  drift := by
    rintro s _ s₁ rfl hdrift
    exact ⟨s₁, .single hdrift, rfl⟩
  submit position rows := {
    start := by rintro _ _ rfl; rfl
    finish := by
      rintro _ _ _ s₁ rfl hfinish
      exact ⟨s₁, hfinish, rfl⟩
    abandon := by rintro _ _ rfl -; rfl }
  begun _ := rfl
  begin j := .ready (renamed_task e ids j)
  step := by
    rintro j strand strand' strand₁ s _ s₁ t h rfl step
    have hwho : (some (j.onRow (Row.renamed ids))).map Job.anonymous = (some j).map Job.anonymous := rfl
    obtain ⟨t', strand₁', s₁', step', h₁, hs₁, ht⟩ := h.step hk hwho step
    exact ⟨t', strand₁', s₁', .single step', h₁, hs₁, by simpa using ht⟩
  leave := by
    rintro j outcome strand' s _ h rfl
    cases h with
    | ready h =>
      cases h
      exact ⟨[], s, .refl, rfl, rfl⟩
  lose := by
    rintro j c next strand' s _ s₁ h rfl hnone
    cases h with
    | waiting h =>
      cases h with
      | geocode position a id h => exact ⟨_, _, s₁, rfl, (hk.finish position a id s).trans hnone, rfl, rfl⟩
      | call _ h => exact ⟨_, _, s₁, rfl, hnone, rfl, rfl⟩

/-! ## Runs -/

/-- Addresses in the same places have rows that differ in ids only. -/
theorem exists_renamed {addresses addresses' : List Address}
    (h : addresses.map Address.parts = addresses'.map Address.parts) :
    ∃ ids, rowsOf (Address.assignIds addresses') = (rowsOf (Address.assignIds addresses)).map (Row.renamed ids) := by
  refine ⟨fun i => ((Address.assignIds addresses')[i]?.map Address.id).getD "", List.ext_getElem? fun i => ?_⟩
  have hparts : addresses[i]?.map Address.parts = addresses'[i]?.map Address.parts := by
    rw [← List.getElem?_map, ← List.getElem?_map, h]
  rw [List.getElem?_map, rowsOf_getElem?, rowsOf_getElem?]
  cases ha : addresses[i]? with
  | none =>
    have ha' : addresses'[i]? = none := by simpa [ha] using hparts.symm
    rw [List.getElem?_eq_none_iff] at ha ha'
    rw [List.getElem?_eq_none (by rwa [Address.length_assignIds]),
      List.getElem?_eq_none (by rwa [Address.length_assignIds])]
    rfl
  | some a =>
    rw [ha] at hparts
    obtain ⟨a', ha', hparts⟩ := Option.map_eq_some_iff.1 hparts.symm
    obtain ⟨id, hid⟩ := Address.assignIds_getElem? ha
    obtain ⟨id', hid'⟩ := Address.assignIds_getElem? ha'
    rw [hid, hid', Address.eq_withId_of_parts hparts.symm]
    simp [Row.renamed, hid', Address.withId]

/-- Whatever a run of the first plan does from a state, in whatever order, a run of the second one can do as well:
but for the ids of callers it shows the same, it comes to the same state, and to the same outcome. -/
def Plan.Mimicked (e : Engine) (k : Setting σ) (p p' : Plan α) (s : σ) : Prop :=
  ∀ t c s₁, Config.Steps e k (.ready p) s t c s₁ →
    ∃ t' c', Config.Steps e k (.ready p') s t' c' s₁ ∧ c'.outcome? = c.outcome? ∧
      t'.map Event.anonymous = t.map Event.anonymous

theorem mimicked_of_plans {e : Engine} {k : Setting σ} (hk : k.IgnoresIds) {ids : Nat → String} {p p' : Plan α}
    (h : (renamed e hk ids).Plans id p p') (s : σ) : p.Mimicked e k p' s := by
  intro t c s₁ steps
  have hready : (renamed e hk ids).Configs id (.ready p) (.ready p') := .ready h
  obtain ⟨t', c', s₁', steps', hc, rfl, ht⟩ := hready.steps rfl steps
  refine ⟨t', c', steps', by simpa using hc.outcome?, ?_⟩
  simpa [renamed] using ht

/-- None of the backends passes on the id of a single address. -/
theorem ignoresIds_world {ρ : Type} (u : Setup) (w : World services ρ) (clock : ρ → Time)
    (drift : Setup.State ρ → Setup.State ρ → Prop) : Setting.IgnoresIds ⟨u.world w clock, drift⟩ where
  start _ _ _ _ := rfl
  finish position a id s := by
    have hbackend : ∀ b : Backend, b.geocode (a.withId id) = b.geocode a := by
      intro b
      cases b <;> rfl
    simp only [Setup.world, World.immediate, hbackend]
  abandon _ _ _ _ := rfl

/-- The ids that callers give to their addresses play no part, as long as the providers of single addresses ignore
them, which those of a setup do. -/
theorem ids_play_no_part :
    (∀ {ρ : Type} (u : Setup) (w : World services ρ) (clock : ρ → Time)
      (drift : Setup.State ρ → Setup.State ρ → Prop), Setting.IgnoresIds ⟨u.world w clock, drift⟩) ∧
    ∀ {σ : Type} (e : Engine) (k : Setting σ), k.IgnoresIds → ∀ addresses addresses' : List Address,
      addresses.map Address.parts = addresses'.map Address.parts → ∀ s,
        (e.batch addresses).Mimicked e k (e.batch addresses') s ∧
          (e.bulk addresses).Mimicked e k (e.bulk addresses') s := by
  refine ⟨ignoresIds_world, fun e k hk addresses addresses' hparts s => ?_⟩
  obtain ⟨ids, hrows⟩ := exists_renamed hparts
  exact ⟨mimicked_of_plans hk ((renamed e hk ids).batch hrows) s,
    mimicked_of_plans hk ((renamed e hk ids).bulk hrows) s⟩

/-- Two addresses may both be given the position of the second one as their id. -/
theorem ids_play_no_part_two :
    (InMemory.setting Sample.answer true).IgnoresIds ∧
    (Sample.engine.bulk [Sample.home, Sample.office]).Mimicked Sample.engine (InMemory.setting Sample.answer true)
      (Sample.engine.bulk [Sample.home.withId "1", Sample.office.withId "1"]) {} := by
  have hk : (InMemory.setting Sample.answer true).IgnoresIds := {
    start _ _ _ _ := rfl
    finish position a id s := by simp [InMemory.setting, World.immediate, Sample.answer_withId]
    abandon _ _ _ _ := rfl }
  exact ⟨hk, (ids_play_no_part.2 Sample.engine _ hk [Sample.home, Sample.office]
    [Sample.home.withId "1", Sample.office.withId "1"] rfl {}).2⟩

end Engine

end Geocoding
