import Geocoding.Proofs.AddressTable
import Geocoding.Proofs.Assurances
import Geocoding.Proofs.Interleaving.Completion
import Geocoding.Proofs.OutputLines

/-!
# Runs over a file

A run over a file of addresses does all or nothing. As long as something is wrong with its configuration or with a
record of the file, it asks nobody and writes nothing. Otherwise every record gets a line, in order, and the line tells
what has become of the record. How many rows are resolved at a time, and in what order, makes no difference to that.
-/

namespace Geocoding

/-! ## Services that always reply -/

/-- Every call to a service comes to a reply, be it an error. -/
def World.Replies {σ : Type} {I : Interface} (w : World I σ) : Prop :=
  ∀ c s, ∃ reply s', w.answer c s = (some reply, s')

theorem World.Replies.run {σ α : Type} {I : Interface} {w : World I σ} (hw : w.Replies) (p : Program I α) (s : σ) :
    ∃ a s', p.run w s = (some a, s') := by
  induction p generalizing s with
  | done a => exact ⟨a, s, rfl⟩
  | look next ih => exact ih _ s
  | call c next ih =>
    obtain ⟨reply, s₁, hanswer⟩ := hw c s
    obtain ⟨a, s', hrun⟩ := ih reply s₁
    exact ⟨a, s', by simp [Program.run, hanswer, hrun]⟩

namespace Engine

/-- Providers are called at their positions. -/
def Call.InOrder (e : Engine) : Call → Prop
  | .geocode position _ => position < e.providers.length
  | .submit position _ => position < e.providers.length
  | .check _ | .store .. => True

/-- Providers are called at their positions, whatever they reply. -/
def anyReply (e : Engine) : Terms where
  permits _ c := c.InOrder e
  expects _ _ _ := True
  cancelled _ _ := trivial

theorem anyReply_aboutRows (e : Engine) (rows : List Row) : e.anyReply.AboutRows e rows fun _ => False where
  jobs _ _ := {
    geocode := fun _ h => h
    check := trivial
    store := fun _ => trivial
    noMatch := fun _ _ _ => False.elim
    noHit := False.elim }
  submit _ h _ _ := h
  noMatch _ _ _ _ _ _ _ := False.elim

end Engine

namespace Setup

open Engine

variable {σ : Type}

theorem length_providers (u : Setup) : u.engine.providers.length = u.backends.length := by
  simp [engine, ofProviders, withConcurrency, withChunkSize]

theorem assures_planFor (u : Setup) (bulk : Bool) (addresses : List Address) :
    (u.planFor bulk addresses).Assures u.engine u.engine.anyReply fun results => results.length = addresses.length := by
  have hlength : ∀ results, Spares (rowsOf (Address.assignIds addresses)) (fun _ => False) results →
      results.length = addresses.length := by
    intro results hresults
    rw [hresults.1, length_rowsOf, Address.length_assignIds]
  have hterms := anyReply_aboutRows u.engine (rowsOf (Address.assignIds addresses))
  cases bulk with
  | true => exact (assures_bulk hterms).mono hlength
  | false => exact (assures_batch hterms).mono hlength

/-- A program that a call is carried out by comes to a reply. -/
theorem State.run_of_replies {α : Type} {w : World services σ} (hw : w.Replies) (p : Program services α)
    (s : State σ) : ∃ a s', s.run w p = (some a, s') := by
  obtain ⟨a, outside, hrun⟩ := hw.run p s.outside
  exact ⟨a, { s with outside }, by simp [State.run, hrun]⟩

theorem anyReply_keptBy (u : Setup) {w : World services σ} (hw : w.Replies) (clock : σ → Time) :
    u.engine.anyReply.KeptBy (u.world w clock) := by
  intro who c s hc
  suffices hreply : ∃ reply s', (u.world w clock).answer c s = (some reply, s') by
    obtain ⟨reply, s', hanswer⟩ := hreply
    exact ⟨reply, s', hanswer, trivial⟩
  cases c with
  | geocode position a =>
    have hlt : position < u.backends.length := u.length_providers ▸ hc
    simpa [world, World.answer, World.immediate, hlt] using State.run_of_replies hw _ s
  | submit position rows =>
    have hlt : position < u.backends.length := u.length_providers ▸ hc
    simpa [world, World.answer, World.immediate, hlt] using State.run_of_replies hw _ s
  | check key =>
    simp only [world, World.answer, World.immediate]
    cases u.store with
    | none => exact ⟨_, _, rfl⟩
    | memory ttlDays => exact ⟨_, _, rfl⟩
    | table t => exact State.run_of_replies hw _ s
  | store key r =>
    simp only [world, World.answer, World.immediate]
    cases u.store with
    | none => exact ⟨_, _, rfl⟩
    | memory ttlDays => exact ⟨_, _, rfl⟩
    | table t => exact State.run_of_replies hw _ s

end Setup

namespace CommandLine

variable {σ : Type}

/-! ## Before the first request -/

/-- From its surroundings a run gets an engine, and what stands behind its calls. -/
def Surroundings.SetsUp (s : Surroundings σ) (u : Setup) : Prop :=
  ∃ c hasDatabase, Configuration.load s.sources = some (.ok c) ∧ s.database c = .ok hasDatabase ∧
    c.setup hasDatabase = .ok u

/-- The run fails without a line of output. What the services would do makes no difference to that, and they are left
as they are: none of them is asked for anything. -/
def FailsAtOnce (s : Surroundings σ) (outside : σ) : Prop :=
  ∃ o : Outcome, o.exitCode ≠ 0 ∧ o.lines = [] ∧ ∀ services, run { s with services } outside = (o, outside)

theorem Surroundings.database_services (s : Surroundings σ) (services : World Geocoding.services σ)
    (c : Configuration) : ({ s with services } : Surroundings σ).database c = s.database c := rfl

section Failures

variable {s : Surroundings σ} {path : String} {bulk : Bool} {outside : σ} {u : Setup}

theorem failsAtOnce_of_not_setsUp (hcommand : parse s.arguments = .command (.geocode path bulk))
    (h : ∀ u, ¬ s.SetsUp u) : FailsAtOnce s outside := by
  cases hload : Configuration.load s.sources with
  | none => exact ⟨.breakdown, by decide, rfl, fun services => by simp only [run, hcommand, hload]⟩
  | some loaded =>
    cases loaded with
    | error e =>
      refine ⟨.failure ("Configuration error: " ++ e.message), Nat.one_ne_zero, rfl, fun services => ?_⟩
      simp only [run, hcommand, hload]
    | ok c =>
      cases hdatabase : s.database c with
      | error e =>
        refine ⟨.failure ("Database error: " ++ e.message), Nat.one_ne_zero, rfl, fun services => ?_⟩
        simp only [run, hcommand, hload, Surroundings.carryOut, Surroundings.database_services, hdatabase]
      | ok hasDatabase =>
        cases hsetup : c.setup hasDatabase with
        | error e =>
          refine ⟨.failure e.message, Nat.one_ne_zero, rfl, fun services => ?_⟩
          simp only [run, hcommand, hload, Surroundings.carryOut, Surroundings.database_services, hdatabase,
            Surroundings.geocode, hsetup]
        | ok u => exact absurd ⟨c, hasDatabase, hload, hdatabase, hsetup⟩ (h u)

/-- Once an engine has been set up, the addresses decide what is done. -/
theorem run_of_setsUp (hcommand : parse s.arguments = .command (.geocode path bulk)) (h : s.SetsUp u) (outside : σ) :
    run s outside = match readAddresses s.contentsOf path with
      | .error e => (.failure e.message, outside)
      | .ok addresses => match s.resolveAll u bulk addresses outside with
        | (some results, outside) => (.success (linesOf addresses results), outside)
        | (none, outside) => (.breakdown, outside) := by
  obtain ⟨c, hasDatabase, hload, hdatabase, hsetup⟩ := h
  have hrun : run s outside = s.geocode c hasDatabase path bulk outside := by
    simp only [run, hcommand, hload, Surroundings.carryOut, hdatabase]
  rw [hrun]
  unfold Surroundings.geocode
  split
  next e hfailed => cases hsetup.symm.trans hfailed
  next u' hsetup' =>
    obtain rfl := Except.ok.inj (hsetup.symm.trans hsetup')
    rfl

theorem readAddresses_of_readable {file : Bytes} (hfile : s.contentsOf path = .ok file) (h : Address.Readable file) :
    ∃ addresses, Address.Lists file addresses ∧
      readAddresses s.contentsOf path = .ok (Address.assignIds addresses) := by
  obtain ⟨addresses, haddresses⟩ := Address.readable_iff.1 h
  exact ⟨addresses, haddresses, by simp only [readAddresses, hfile, Address.readTable_eq_ok_iff.2 haddresses]⟩

theorem readAddresses_of_not_readable (h : ∀ file, s.contentsOf path = .ok file → ¬ Address.Readable file) :
    ∃ e, readAddresses s.contentsOf path = .error e := by
  unfold readAddresses
  split
  next => exact ⟨_, rfl⟩
  next file hfile =>
    split
    next => exact ⟨_, rfl⟩
    next addresses hread =>
      exact absurd (Address.readable_iff.2 ⟨addresses, Address.readTable_eq_ok_iff.1 hread⟩) (h file hfile)

theorem failsAtOnce_of_not_readable (hcommand : parse s.arguments = .command (.geocode path bulk)) (hsetup : s.SetsUp u)
    (h : ∀ file, s.contentsOf path = .ok file → ¬ Address.Readable file) : FailsAtOnce s outside := by
  obtain ⟨e, hread⟩ := readAddresses_of_not_readable h
  refine ⟨.failure e.message, Nat.one_ne_zero, rfl, fun services => ?_⟩
  have hsetup' : ({ s with services } : Surroundings σ).SetsUp u := hsetup
  rw [run_of_setsUp (s := { s with services }) hcommand hsetup' outside]
  simp only [hread]

end Failures

/-! ## Aligned output -/

/-- The tag of an address at a position: its own, or else the position. -/
def tag (a : Address) (i : Nat) : String :=
  if Text.isBlankText a.id then i.repr else a.id

/-- There is a result and a line for each address, in order, and each line tells the tag of its address and its
result. -/
structure Aligned (addresses : List Address) (results : List Resolution) (lines : List String) : Prop where
  length_results : results.length = addresses.length
  length_lines : lines.length = addresses.length
  tells : ∀ (i : Nat) a r line, addresses[i]? = some a → results[i]? = some r → lines[i]? = some line →
    Tells line (tag a i) r

theorem assignIds_tag {addresses : List Address} {i : Nat} {a : Address} (h : addresses[i]? = some a) :
    ∃ a', (Address.assignIds addresses)[i]? = some a' ∧ a'.id = tag a i := by
  have hzip : addresses.zipIdx[i]? = some (a, i) := by simp [List.getElem?_zipIdx, h]
  simp only [Address.assignIds, List.getElem?_map, hzip, Option.map_some, Option.some.injEq, exists_eq_left', tag]
  split <;> rfl

theorem aligned_linesOf {addresses : List Address} {results : List Resolution}
    (h : results.length = addresses.length) :
    Aligned addresses results (linesOf (Address.assignIds addresses) results) where
  length_results := h
  length_lines := by simp [linesOf, Address.length_assignIds, h]
  tells i a r line ha hr hline := by
    obtain ⟨a', ha', hid⟩ := assignIds_tag ha
    have hzip : ((Address.assignIds addresses).zip results)[i]? = some (a', r) :=
      List.getElem?_zip_eq_some.2 ⟨ha', hr⟩
    rw [linesOf, List.getElem?_map, hzip] at hline
    cases hline
    exact hid ▸ tells_line a' r

/-! ## All or nothing -/

/-- What an engine has around it: nothing changes but by its calls. -/
def Surroundings.setting (s : Surroundings σ) (u : Setup) : Engine.Setting (Setup.State σ) where
  world := u.world s.services s.clock
  drift _ _ := False

/-- The rows of a file are resolved by a run of the plan for them, whatever the services reply. -/
theorem resolveAll_of_replies (s : Surroundings σ) (hreplies : s.services.Replies) (u : Setup) (bulk : Bool)
    (addresses : List Address) (outside : σ) :
    ∃ results t final,
      (u.planFor bulk addresses).Executes u.engine (s.setting u) { memory := u.memory, outside } t results final ∧
      s.resolveAll u bulk addresses outside = (some results, final.outside) ∧ results.length = addresses.length := by
  obtain ⟨results, final, hrun, hlength⟩ := (u.assures_planFor bulk addresses).run
    (u.anyReply_keptBy hreplies s.clock) { memory := u.memory, outside }
  obtain ⟨t, run⟩ := (Engine.Plan.executes_of_run (k := s.setting u) _ hrun).1
  exact ⟨results, t, final, run, by simp only [Surroundings.resolveAll, hrun], hlength⟩

/-- A run over a file does all or nothing. If no engine can be set up, or if the file cannot be read to its last
record, it fails at once. Otherwise the records of the file are addresses, the engine executes the plan for them, be it
in bulk or one by one, and the run writes a line for each of them, which tells its tag and its result in the plan. The
last part says so of every order of steps that the plan may take, with collaborators of any kind; it may also be called
off. -/
theorem run_is_all_or_nothing (s : Surroundings σ) (path : String) (bulk : Bool)
    (hcommand : parse s.arguments = .command (.geocode path bulk)) (hreplies : s.services.Replies) (outside : σ) :
    ((∀ u, ¬ s.SetsUp u) ∨ (∀ file, s.contentsOf path = .ok file → ¬ Address.Readable file) →
      FailsAtOnce s outside) ∧
    ∀ u file, s.SetsUp u → s.contentsOf path = .ok file → Address.Readable file →
      ∃ addresses, Address.Lists file addresses ∧
        (∃ results lines t final,
          (u.planFor bulk (Address.assignIds addresses)).Executes u.engine (s.setting u)
            { memory := u.memory, outside } t results final ∧
          s.resolveAll u bulk (Address.assignIds addresses) outside = (some results, final.outside) ∧
          run s outside = (.success lines, final.outside) ∧ Aligned addresses results lines) ∧
        ∀ {τ : Type} (k : Engine.Setting τ) start t results final,
          (u.planFor bulk (Address.assignIds addresses)).Executes u.engine k start t results final →
          Aligned addresses results (linesOf (Address.assignIds addresses) results) := by
  refine ⟨?nothing, fun u file hsetup hfile hreadable => ?all⟩
  case nothing =>
    by_cases hsetup : ∃ u, s.SetsUp u
    · obtain ⟨u, hsetup⟩ := hsetup
      rintro (hnone | hfile)
      · exact absurd hsetup (hnone u)
      · exact failsAtOnce_of_not_readable hcommand hsetup hfile
    · exact fun _ => failsAtOnce_of_not_setsUp hcommand (not_exists.1 hsetup)
  case all =>
    obtain ⟨addresses, haddresses, hread⟩ := readAddresses_of_readable hfile hreadable
    refine ⟨addresses, haddresses, ?_, fun k start t results final run => ?_⟩
    · obtain ⟨results, t, final, hexecutes, hresults, hlength⟩ :=
        resolveAll_of_replies s hreplies u bulk (Address.assignIds addresses) outside
      have haligned := aligned_linesOf (hlength.trans (Address.length_assignIds addresses))
      refine ⟨results, _, t, final, hexecutes, hresults, ?_, haligned⟩
      rw [run_of_setsUp hcommand hsetup, hread]
      simp only [hresults]
    · have hlength := run.assured (u.assures_planFor bulk (Address.assignIds addresses)) fun event _ => by
        cases event <;> trivial
      exact aligned_linesOf (hlength.trans (Address.length_assignIds addresses))

namespace Sample

/-- Two records: the first has a tag of two lines between blanks, the second has none. -/
def file : Bytes :=
  Text.encode "id,street,city,state,zip\n\" 7\n\"\"b\"\" \",100 Main St,Miami,FL,33131\n,200 Main St,Miami,FL,33131\n"

def addresses : List Address := [
  { id := "7\n\"b\"", street := "100 Main St", city := "Miami", state := "FL", zip := "33131" },
  { street := "200 Main St", city := "Miami", state := "FL", zip := "33131" }]

/-- The second record is too short. -/
def torn : Bytes := Text.encode "id,street,city,state,zip\n1,100 Main St,Miami,FL,33131\n2,200 Main St\n"

/-- Services of which one answers. To a batch it replies that the first row is a match, behind the row that is none,
and to a lookup that there is a match for the address of the first row. -/
def services : World Geocoding.services Unit :=
  World.immediate (fun _ => false) fun c s => match c with
    | .request (.post ..) => (some (.ok {
        body := Text.encode "\"1\",\"\",\"No_Match\"\n\"0\",\"\",\"Match\",\"Exact\",\"\",\"-80.25,25.5\"\n" }), s)
    | .request (.get _ pairs) =>
      if pairs.lookup "address" = some "100 Main St, Miami, FL, 33131" then
        (some (.ok { body := Text.encode "[[[[\"100 MAIN ST\",[-80.25,25.5]]]]]" }), s)
      else (some (.error (.http "")), s)
    | .statement _ => (some (.error (.database "")), s)

/-- A run over a file, with nothing configured. -/
def surroundings (bulk : Bool) (file : Bytes) : Surroundings Unit where
  arguments := ["geocode", "--input", "addresses.csv"] ++ if bulk then ["--bulk"] else []
  sources := {}
  contentsOf _ := .ok file
  connect _ := .error (.database "")
  services := services
  clock _ := 0

/-- The engine without a configuration: two backends, and a cache in memory. -/
def setup : Setup where
  backends := [
    .census ⟨"/geocoder", "Public_AR_Current", "Current_Current"⟩ true, .google ⟨Configuration.googlePath, ""⟩]
  store := .memory 0
  concurrency := 10
  chunkSize := 10000

/-- Where the first record is: at 25.5, -80.25. -/
def found : Resolution where
  latitude := ⟨0x4039800000000000⟩
  longitude := ⟨0xC054100000000000⟩
  source := "census"
  quality := some .rooftop
  matched := true

theorem parse_arguments (bulk : Bool) (file : Bytes) :
    parse (surroundings bulk file).arguments = .command (.geocode "addresses.csv" bulk) := by
  have hparse : ∀ bulk : Bool, parse (["geocode", "--input", "addresses.csv"] ++ if bulk then ["--bulk"] else []) =
      .command (.geocode "addresses.csv" bulk) := by
    decide +kernel
  exact hparse bulk

theorem services_replies : services.Replies := by
  rintro ((_ | _) | _) ⟨⟩
  · simp only [services, World.answer, World.immediate]
    split <;> exact ⟨_, _, rfl⟩
  · exact ⟨_, _, rfl⟩
  · exact ⟨_, _, rfl⟩

theorem lists_file : Address.Lists file addresses :=
  Address.readTable_eq_ok_iff.1 (by decide +kernel)

theorem not_readable_torn : ¬ Address.Readable torn := by
  have htorn : (Address.readTable torn).toOption = none := by decide +kernel
  intro hreadable
  obtain ⟨addresses, haddresses⟩ := Address.readable_iff.1 hreadable
  rw [Address.readTable_eq_ok_iff.2 haddresses] at htorn
  cases htorn

theorem surroundings_setsUp (bulk : Bool) (file : Bytes) : (surroundings bulk file).SetsUp setup :=
  ⟨{}, false, rfl, rfl, rfl⟩

end Sample

/-- A file with two records, and one that ends too early, with and without `--bulk`. -/
theorem run_is_all_or_nothing_two :
    Sample.services.Replies ∧ ∀ bulk,
      (∀ file, parse (Sample.surroundings bulk file).arguments = .command (.geocode "addresses.csv" bulk)) ∧
      FailsAtOnce (Sample.surroundings bulk Sample.torn) () ∧
      ∃ first second, run (Sample.surroundings bulk Sample.file) () = (.success [first, second], ()) ∧
        Tells first "7\n\"b\"" Sample.found ∧ Resolution.parse (Text.encode first) = .ok Sample.found ∧
        Tells second "1" (.unmatched "census") := by
  refine ⟨Sample.services_replies, fun bulk => ⟨Sample.parse_arguments bulk, ?torn, ?whole⟩⟩
  case torn =>
    refine (run_is_all_or_nothing (Sample.surroundings bulk Sample.torn) _ bulk (Sample.parse_arguments ..)
      Sample.services_replies ()).1 (.inr ?_)
    rintro _ ⟨⟩
    exact Sample.not_readable_torn
  case whole =>
    obtain ⟨addresses, haddresses, ⟨results, lines, _, _, -, hresults, hrun, haligned⟩, -⟩ :=
      (run_is_all_or_nothing (Sample.surroundings bulk Sample.file) _ bulk (Sample.parse_arguments ..)
        Sample.services_replies ()).2 _ _ (Sample.surroundings_setsUp ..) rfl
        (Address.readable_iff.2 ⟨_, Sample.lists_file⟩)
    obtain rfl : addresses = Sample.addresses := Except.ok.inj
      ((Address.readTable_eq_ok_iff.2 haddresses).symm.trans (Address.readTable_eq_ok_iff.2 Sample.lists_file))
    -- One batch or two lookups, the results are the same.
    have hfound : ((Sample.surroundings bulk Sample.file).resolveAll Sample.setup bulk
        (Address.assignIds Sample.addresses) ()).1 = some [Sample.found, .unmatched "census"] := by
      cases bulk <;> decide +kernel
    rw [hresults] at hfound
    obtain rfl := Option.some.inj hfound
    obtain ⟨first, second, rfl⟩ : ∃ first second, lines = [first, second] :=
      List.length_eq_two.1 haligned.length_lines
    have hfirst : Tells first "7\n\"b\"" Sample.found := haligned.tells 0 _ _ _ rfl rfl rfl
    have hsecond : Tells second "1" (.unmatched "census") := haligned.tells 1 _ _ _ rfl rfl rfl
    refine ⟨first, second, hrun, hfirst, ?_, hsecond⟩
    exact hfirst.resolution (by decide +kernel) (by decide +kernel) (by decide)

end CommandLine

end Geocoding
