import Geocoding.Cache.Memory
import Geocoding.Proofs.Interleaving.Traces
import Geocoding.Proofs.Steady

/-!
# Collaborators in memory

Providers that have one answer for each address, to a submission as well, and the cache in memory with entries
that never grow too old. Time passes in the course of a run, and the token fires at any moment, or never. These
collaborators are steady, and where the token never fires they disturb no run.
-/

namespace Geocoding

theorem Answers.mem_of_get?_insertAll {answers : Answers} {rows : List (String × Resolution)} {id : String}
    {r : Resolution} (h : (answers.insertAll rows).get? id = some r) :
    (id, r) ∈ rows ∨ answers.get? id = some r := by
  induction rows generalizing answers with
  | nil => exact .inr h
  | cons row rows ih =>
    obtain hmem | hget := @ih (answers.insert row.1 row.2) h
    · exact .inl (List.mem_cons_of_mem _ hmem)
    · rw [get?_insert] at hget
      split at hget
      next hid =>
        obtain rfl := Option.some.inj hget
        exact .inl (hid ▸ List.mem_cons_self)
      next => exact .inr hget

namespace Engine

/-- The state of collaborators in memory. -/
structure InMemory where
  entries : List (String × Cache.Entry) := []
  now : Time := 0
  fired : Bool := false

namespace InMemory

/-- The cache, without a limit to the age of its entries. -/
def cache (s : InMemory) : Cache.Memory where
  ttlDays := 0
  entries := s.entries

/-- The answers to rows one by one, as far as there are any, as answers to a submission. -/
def rowwise (answer : Nat → Address → Except Error Resolution) (position : Nat) (rows : List Address) :
    Answers :=
  Answers.empty.insertAll (rows.filterMap fun a => (answer position a).toOption.map fun r => (a.id, r))

/-- Collaborators in memory; `fires` says whether the token is seen to fire. -/
def setting (answer : Nat → Address → Except Error Resolution) (fires : Bool) : Setting InMemory where
  world := World.immediate (fun s => fires && s.fired) fun c s => match c with
    | .geocode position a => (some (answer position a), s)
    | .submit position rows => (some (.ok (rowwise answer position rows)), s)
    | .check key => (some (.ok (s.cache.check key s.now)), s)
    | .store key r => (some (.ok ()), { s with entries := (s.cache.store key r s.now).entries })
  drift s s' := s'.entries = s.entries ∧ (s.fired = true → s'.fired = true)

/-- An answer to a submission is the answer to one of its rows. -/
theorem mem_of_rowwise {answer : Nat → Address → Except Error Resolution} {position : Nat}
    {rows : List Address} {id : String} {r : Resolution} (h : (rowwise answer position rows).get? id = some r) :
    ∃ a ∈ rows, a.id = id ∧ answer position a = .ok r := by
  obtain hmem | hnone := Answers.mem_of_get?_insertAll h
  · obtain ⟨a, ha, hr⟩ := List.mem_filterMap.1 hmem
    refine ⟨a, ha, ?_⟩
    cases hanswer : answer position a with
    | ok r' =>
      rw [hanswer] at hr
      cases hr
      exact ⟨rfl, rfl⟩
    | error error =>
      rw [hanswer] at hr
      cases hr
  · cases hnone

/-- What they reply. -/
def conduct (answer : Nat → Address → Except Error Resolution) : Conduct InMemory where
  answer
  mayAnswer position rows reply := reply = .ok (rowwise answer position rows)
  entry s key := s.cache.find? key
  live _ := true

variable {answer : Nat → Address → Except Error Resolution} {fires : Bool}

theorem hit_eq_check (s : InMemory) (key : String) : (conduct answer).hit s key = s.cache.check key s.now := by
  -- Without a limit every entry is fresh at any time.
  have hfresh : (fun entry : Cache.Entry => entry.isFresh s.cache.ttlDays s.now) = fun _ => true := rfl
  unfold Cache.Memory.check
  rw [hfresh]
  rfl

theorem changes_store (answer : Nat → Address → Except Error Resolution) (s : InMemory) (key : String)
    (r : Resolution) :
    (conduct answer).Changes (.store key r) s { s with entries := (s.cache.store key r s.now).entries } ∧
      (conduct answer).Holds key r { s with entries := (s.cache.store key r s.now).entries } := by
  have hholds : (conduct answer).Holds key r { s with entries := (s.cache.store key r s.now).entries } :=
    ⟨s.now, Cache.Memory.find?_insert_self s.cache (.ofResolution key r s.now), rfl⟩
  refine ⟨?_, hholds⟩
  intro key'
  by_cases hkey : key' = key
  · exact .inr ⟨r, hkey ▸ rfl, hkey ▸ hholds⟩
  · exact .inl (Cache.Memory.find?_insert_of_ne s.cache hkey)

/-- Collaborators in memory are steady for every engine. -/
theorem steady (e : Engine) (answer : Nat → Address → Except Error Resolution) (fires : Bool) :
    Steady e (setting answer fires) (conduct answer) where
  start s _ := ⟨fun _ => .inl rfl, id⟩
  finish {c} s _ := by
    cases c with
    | geocode position a => exact ⟨_, _, rfl, fun _ => .inl rfl, id, .inl rfl⟩
    | submit position rows => exact ⟨_, _, rfl, fun _ => .inl rfl, id, .inl rfl⟩
    | check key => exact ⟨_, _, rfl, fun _ => .inl rfl, id, .inl (congrArg _ (hit_eq_check s key).symm)⟩
    | store key r =>
      obtain ⟨hchanges, hholds⟩ := changes_store answer s key r
      exact ⟨_, _, rfl, hchanges, id, .inl ⟨rfl, hholds⟩⟩
  abandon s _ _ := ⟨fun _ => .inl rfl, id⟩
  drift := by
    -- Drifts leave the entries as they are, and never take back a token that has fired.
    rintro s s' ⟨hentries, hfired⟩
    constructor
    · intro key
      change s'.cache.find? key = s.cache.find? key
      unfold Cache.Memory.find? cache
      rw [hentries]
    · intro h
      have hboth : fires = true ∧ s.fired = true := by simpa [setting, World.immediate] using h
      simp [setting, World.immediate, hboth.1, hfired hboth.2]

theorem calm (answer : Nat → Address → Except Error Resolution) (s : InMemory) :
    (setting answer false).world.fired s = false := rfl

/-- Where the token never fires, and no provider reports that it did, they disturb no run. -/
theorem undisturbed (h : ∀ position a, answer position a ≠ .error .cancelled) :
    Undisturbed (setting answer false) where
  clear := calm answer
  reply c s := by
    cases c with
    | geocode position a => exact ⟨_, _, rfl, h position a⟩
    | submit position rows => exact ⟨_, _, rfl, by rintro ⟨⟩⟩
    | check key => exact ⟨_, _, rfl, by rintro ⟨⟩⟩
    | store key r => exact ⟨_, _, rfl, by rintro ⟨⟩⟩

end InMemory

/-! ## A small engine -/

namespace Sample

def home : Address where
  street := "1600 Pennsylvania Ave NW"
  city := "Washington"
  state := "DC"
  zip := "20500"

def office : Address where
  street := "11 Wall St"
  city := "New York"
  state := "NY"
  zip := "10005"

/-- Three providers, of which the second takes bulk submissions of one row. -/
def engine : Engine :=
  .ofProviders [{ name := "tiger" }, { name := "census", bulkLimit := some 1 }, { name := "google" }] true

def find (source : String) : Resolution :=
  { source, matched := true }

/-- The first provider finds nothing, the second what is in one state, and the third everything. -/
def answer : Nat → Address → Except Error Resolution
  | 0, _ => .ok (.unmatched "tiger")
  | 1, a => .ok (if a.state = "DC" then find "census" else .unmatched "census")
  | _, _ => .ok (find "google")

theorem answer_ne_cancelled (position : Nat) (a : Address) : answer position a ≠ .error .cancelled := by
  unfold answer
  split <;> rintro ⟨⟩

theorem answer_withId (position : Nat) (a : Address) (id : String) :
    answer position (a.withId id) = answer position a := by
  unfold answer
  split <;> rfl

theorem nodup_key : ([home, office].map Address.key).Nodup := by
  decide +kernel

end Sample

end Engine

end Geocoding
