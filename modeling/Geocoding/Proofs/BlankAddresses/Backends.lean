import Geocoding.Proofs.CanonicalAddress
import Geocoding.Proofs.Calls
import Geocoding.Proofs.Census
import Geocoding.Proofs.Correlation

/-!
# What backends ask about blank addresses

Nothing, for every backend has a test for blank addresses of its own: single lookups test the address on one
line, and batches its parts. The two tests agree. So the calls that a setup makes outside of the process are
about addresses that are not blank, and a blank address is no match, whatever the services reply.
-/

namespace Geocoding

theorem intercalate_ne_empty {separator part : String} {parts : List String} (h : part ≠ "") :
    String.intercalate separator (part :: parts) ≠ "" := by
  intro hempty
  have hlist := congrArg String.toList hempty
  rw [String.toList_intercalate, List.map_cons] at hlist
  cases parts <;> simp [List.intercalate, h] at hlist

/-- On one line, there is nothing of an address exactly if all its parts are blank. -/
theorem Address.oneLine_eq_empty_iff {a : Address} : a.oneLine = "" ↔ a.isBlank = true := by
  rw [isBlank_iff]
  change String.intercalate ", " a.presentParts = "" ↔ _
  cases hparts : a.presentParts with
  | nil => simp
  | cons part parts =>
    have hpart : part ≠ "" := by
      have hmem : part ∈ a.presentParts := by simp [hparts]
      exact bne_iff_ne.1 (List.mem_filter.1 hmem).2
    simp [intercalate_ne_empty hpart]

namespace Program

variable {I J : Interface} {α : Type}

/-- The program comes to an outcome, for some replies. -/
def Yields : Program I α → α → Prop
  | done a', a => a' = a
  | look next, a => ∃ fired, (next fired).Yields a
  | call _ next, a => ∃ reply, (next reply).Yields a

theorem Always.of_yields {Q : α → Prop} {p : Program I α} {a : α} (h : p.Always Q) (hyields : p.Yields a) : Q a := by
  induction p with
  | done a' => exact hyields ▸ h
  | look next ih =>
    obtain ⟨fired, hyields⟩ := hyields
    exact ih fired (h fired) hyields
  | call c next ih =>
    obtain ⟨reply, hyields⟩ := hyields
    exact ih reply (h reply) hyields

theorem yields_of_run {σ : Type} {w : World I σ} {p : Program I α} {s s' : σ} {a : α}
    (h : p.run w s = (some a, s')) : p.Yields a := by
  induction p generalizing s with
  | done a' => exact Option.some.inj (congrArg Prod.fst h)
  | look next ih => exact ⟨_, ih _ h⟩
  | call c next ih =>
    unfold run at h
    split at h
    next reply s₁ _ => exact ⟨reply, ih reply h⟩
    next => cases h

theorem Only.through {P : I.Call → Prop} {P' : J.Call → Prop} {carry : (c : I.Call) → Program J (I.Reply c)}
    {p : Program I α} (h : p.Only P) (hcarry : ∀ c, P c → (carry c).Only P') : (p.through carry).Only P' := by
  induction p with
  | done a => trivial
  | look next ih => exact fun fired => ih fired (h fired)
  | call c next ih => exact (hcarry c h.1).bind fun reply => ih reply (h.2 reply)

theorem Only.overWeb {P : Http.Request → Prop} {p : Program Http.web α} (h : p.Only P) {P' : Service → Prop}
    (hP : ∀ r, P r → P' (.request r)) : p.overWeb.Only P' :=
  Only.through h fun r hr => ⟨hP r hr, fun _ => trivial⟩

theorem Only.overDatabase {P : Sql.Statement → Prop} {p : Program Sql.database α} (h : p.Only P)
    {P' : Service → Prop} (hP : ∀ s, P s → P' (.statement s)) : p.overDatabase.Only P' :=
  Only.through h fun s hs => ⟨hP s hs, fun _ => trivial⟩

end Program

/-! ## Queries -/

/-- A backend asks a service about addresses. -/
inductive Backend.Asks : Backend → List Address → Service → Prop where
  | tiger (settings : Tiger.Settings) (a : Address) :
      Asks (.tiger settings) [a] (.statement (.geocode a.oneLine settings.maxResults))
  | census (client : Census.Client) (bulk : Bool) (a : Address) :
      Asks (.census client bulk) [a] (.request (client.lookupRequest a.oneLine))
  | google (client : Google.Client) (a : Address) :
      Asks (.google client) [a] (.request (client.lookupRequest a.oneLine))
  | batch (client : Census.Client) (bulk : Bool) (addresses : List Address) :
      Asks (.census client bulk) addresses (.request (client.batchRequest (addresses.map Census.BatchRow.ofAddress)))

/-- A statement about cache entries. -/
inductive Service.OnCache : Service → Prop where
  | fetch (table : Cache.TableName) (key : String) (ttlDays : Nat) : OnCache (.statement (.fetch table key ttlDays))
  | upsert (table : Cache.TableName) (entry : Cache.Entry) : OnCache (.statement (.upsert table entry))

namespace Cache.Table

theorem only_check (t : Table) (key : String) : (t.check key).overDatabase.Only Service.OnCache := by
  refine Program.Only.overDatabase (P := (· = .fetch t.name key (min t.ttlDays maxDays))) ?_ ?_
  · refine ⟨rfl, fun reply => ?_⟩
    simp only [Program.bind]
    generalize Sql.atMostOne _ reply = row
    obtain _ | _ | row := row
    · trivial
    · trivial
    · simp only [Program.pure_eq_done, Program.done_bind]
      cases entryOfRow row <;> trivial
  · rintro _ rfl
    exact .fetch ..

theorem only_store (t : Table) (key : String) (r : Resolution) (now : Time) :
    (t.store key r now).overDatabase.Only Service.OnCache := by
  refine Program.Only.overDatabase (P := (· = .upsert t.name (.ofResolution key r now))) ?_ ?_
  · refine ⟨rfl, fun reply => ?_⟩
    cases reply <;> trivial
  · rintro _ rfl
    exact .upsert ..

end Cache.Table

namespace Backend

open Census (present)

/-- A call to a service is a query of a backend about addresses, of which there are some. -/
def Queries (b : Backend) (addresses : List Address) (service : Service) : Prop :=
  addresses ≠ [] ∧ b.Asks addresses service

theorem present_singleton (a : Address) : present [a] = if a.isBlank then [] else [a] := by
  cases h : a.isBlank <;> simp [present, h]

/-- A blank address is answered without asking. -/
theorem geocode_of_blank (b : Backend) {a : Address} (ha : a.isBlank = true) :
    ∃ source, b.geocode a = .done (.ok (.unmatched source)) := by
  have hline := Address.oneLine_eq_empty_iff.2 ha
  cases b with
  | tiger settings =>
    have hdone : settings.geocode a = .done (.ok (.unmatched Tiger.source)) := if_pos hline
    exact ⟨Tiger.source, by rw [geocode, hdone]; rfl⟩
  | census client bulk =>
    have hdone : client.geocode a = .done (.ok (.unmatched Census.source)) := if_pos hline
    exact ⟨Census.source, by rw [geocode, hdone]; rfl⟩
  | google client =>
    have hdone : client.geocode a = .done (.ok (.unmatched Google.source)) := if_pos hline
    exact ⟨Google.source, by rw [geocode, hdone]; rfl⟩

theorem only_forward (line : String) (maxResults : Int) :
    (Spatial.forward line maxResults).Only (· = Sql.Statement.geocode line maxResults) := by
  refine ⟨rfl, fun reply => ?_⟩
  simp only [Program.done_bind]
  split <;> trivial

theorem only_overSpatial_find (line : String) (maxResults : Int) {α : Type}
    {f : Except Error (Option Spatial.Match) → Program Spatial.backend α} (hf : ∀ found, ∃ a, f found = .done a) :
    ((Spatial.find line maxResults).bind f).overSpatial.Only (· = Service.statement (.geocode line maxResults)) := by
  have hfind : ((Spatial.find line maxResults).bind f).Only (· = Spatial.Lookup.forward line maxResults) := by
    refine (Program.only_guarded _).bind fun found => ?_
    obtain ⟨a, ha⟩ := hf found
    rw [ha]
    trivial
  refine Program.Only.overDatabase (hfind.through ?_) fun s hs => congrArg Service.statement hs
  rintro _ rfl
  exact only_forward line maxResults

theorem only_lookup_census (client : Census.Client) (line : String) :
    (client.lookup line).Only (· = client.lookupRequest line) := by
  intro fired
  cases fired with
  | true => trivial
  | false => exact ⟨rfl, fun _ => trivial⟩

theorem only_lookup_google (client : Google.Client) (line : String) :
    (client.lookup line).Only (· = client.lookupRequest line) := by
  unfold Google.Client.lookup
  split
  · trivial
  · intro fired
    cases fired with
    | true => trivial
    | false => exact ⟨rfl, fun _ => trivial⟩

/-- A lookup of an address is a query about it. -/
theorem only_geocode_of_present (b : Backend) {a : Address} (ha : a.isBlank = false) :
    (b.geocode a).Only (b.Asks [a]) := by
  have hline : a.oneLine ≠ "" := fun hempty => by simp [Address.oneLine_eq_empty_iff.1 hempty] at ha
  cases b with
  | tiger settings =>
    have hfind : settings.geocode a = (Spatial.find a.oneLine settings.maxResults).bind _ := if_neg hline
    rw [geocode, hfind]
    refine (only_overSpatial_find _ _ ?_).mono fun service hservice => hservice ▸ .tiger settings a
    rintro (_ | _ | _) <;> exact ⟨_, rfl⟩
  | census client bulk =>
    have hlookup : client.geocode a = (client.lookup a.oneLine).bind _ := if_neg hline
    rw [geocode, hlookup]
    refine Program.Only.overWeb ((only_lookup_census client _).bind ?_) fun r hr => hr ▸ .census client bulk a
    rintro (_ | _ | _) <;> trivial
  | google client =>
    have hlookup : client.geocode a = (client.lookup a.oneLine).bind _ := if_neg hline
    rw [geocode, hlookup]
    refine Program.Only.overWeb ((only_lookup_google client _).bind ?_) fun r hr => hr ▸ .google client a
    rintro (_ | _ | _) <;> trivial

/-- A lookup of an address is a query about it, and there is none if it is blank. -/
theorem only_geocode (b : Backend) (a : Address) : (b.geocode a).Only (b.Queries (present [a])) := by
  cases ha : a.isBlank with
  | true =>
    obtain ⟨source, hdone⟩ := b.geocode_of_blank ha
    rw [hdone]
    trivial
  | false =>
    rw [present_singleton, ha]
    exact (b.only_geocode_of_present ha).mono fun service hasks => ⟨by simp, hasks⟩

theorem only_submit_census (client : Census.Client) (rows : List Census.BatchRow) :
    (client.submit rows).Only fun r => rows ≠ [] ∧ r = client.batchRequest rows := by
  unfold Census.Client.submit
  split
  next => trivial
  next hrows =>
    split
    next => trivial
    next =>
      intro fired
      cases fired with
      | true => trivial
      | false => exact ⟨⟨by simpa using hrows, rfl⟩, fun _ => trivial⟩

/-- A submission of addresses is a query about those that are not blank, and there is none if all of them are. -/
theorem only_submit (b : Backend) (addresses : List Address) :
    (b.submit addresses).Only (b.Queries (present addresses)) := by
  cases b with
  | tiger settings => trivial
  | google client => trivial
  | census client bulk =>
    refine Program.Only.overWeb (P := fun r => present addresses ≠ [] ∧
      r = client.batchRequest ((present addresses).map Census.BatchRow.ofAddress)) ?_ ?_
    · rw [Census.geocodeBulk_eq]
      refine ((only_submit_census client _).mono ?_).bind fun _ => trivial
      rintro r ⟨hrows, hr⟩
      exact ⟨by simpa using hrows, hr⟩
    · rintro _ ⟨hpresent, rfl⟩
      exact ⟨hpresent, .batch client bulk _⟩

/-- Whatever a service sends back, a tag that only blank addresses have is no match. -/
theorem always_submit (b : Backend) (addresses : List Address) :
    (b.submit addresses).Always fun o => ∀ answers id r, o = .ok answers →
      (∀ a ∈ addresses, a.id = id → a.isBlank = true) → answers.get? id = some r → r.matched = false := by
  cases b with
  | tiger settings =>
    rintro _ id r ⟨⟩ - ⟨⟩
  | google client =>
    rintro _ id r ⟨⟩ - ⟨⟩
  | census client bulk =>
    refine Program.Always.through ?_
    rw [Census.geocodeBulk_eq]
    refine (Program.always_true _).bind fun outcome _ => ?_
    rintro answers id r ho hblank hr
    obtain error | lines := outcome
    · cases ho
    · cases ho
      obtain ⟨⟨a, ha, hpresent, rfl⟩, -⟩ | ⟨-, rfl⟩ := Census.origin_of_get? hr
      · rw [hblank a ha rfl] at hpresent
        cases hpresent
      · rfl

end Backend

end Geocoding
