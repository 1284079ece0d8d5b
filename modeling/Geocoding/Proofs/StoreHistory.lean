import Geocoding.Proofs.Cascade
import Geocoding.Cache.Memory
import Mathlib.Data.List.Dedup
import Mathlib.Data.List.Nodup

/-!
# What the cache in memory remembers

Whatever was done with the cache, it holds the last entry that was written under each key and nothing else. Age
takes no entry away: it only decides, each time anew, whether a check tells the entry. So the cache after a
history of operations can be read off the entries written in it, and the times of the operations matter only as
far as they went into those entries.
-/

namespace Geocoding.Cache

/-- What is done with the cache. -/
inductive Operation where
  | store (key : String) (r : Resolution)
  | insert (e : Entry)
  | check (key : String)
  | find (key : String)
  | size
  | isEmpty

namespace Operation

/-- What an operation tells. -/
abbrev Answer : Operation → Type
  | store .. => Unit
  | insert _ => Unit
  | check _ => Option Resolution
  | find _ => Option Entry
  | size => Nat
  | isEmpty => Bool

/-- The entry that an operation writes at some time; reads write none. -/
def written? (now : Time) : Operation → Option Entry
  | store key r => some (.ofResolution key r now)
  | insert e => some e
  | _ => none

end Operation

/-- Operations one after the other, each at its time. The times may be in any order. -/
abbrev History := List (Time × Operation)

/-- The entries written in a history, in order. -/
def History.writes (h : History) : List Entry :=
  h.filterMap fun (now, o) => o.written? now

/-- The last of some entries that is under a key. -/
def lastUnder (key : String) (written : List Entry) : Option Entry :=
  (written.filter (·.addressHash = key)).getLast?

/-- The keys of some entries, each once. -/
def keysOf (written : List Entry) : List String :=
  (written.map (·.addressHash)).dedup

@[simp] theorem lastUnder_append_self (e : Entry) (written : List Entry) :
    lastUnder e.addressHash (written ++ [e]) = some e := by
  simp [lastUnder]

theorem lastUnder_append_of_ne {key : String} {e : Entry} (h : key ≠ e.addressHash) (written : List Entry) :
    lastUnder key (written ++ [e]) = lastUnder key written := by
  simp [lastUnder, h.symm]

/-- Kept and taken out again, a resolution is as it was, but for coordinates that it has without a match. -/
theorem Entry.toResolution_of (key : String) (r : Resolution) (now : Time) :
    (ofResolution key r now).toResolution =
      if r.matched then r else { r with latitude := Double.zero, longitude := Double.zero } := by
  split
  next hmatched => exact toResolution_ofResolution (Resolution.keepable_of_matched hmatched) key now
  next hmatched =>
    -- Without a match the coordinates are not kept, so the entry is that of the resolution without them.
    have hentry : ofResolution key r now =
        ofResolution key { r with latitude := Double.zero, longitude := Double.zero } now := by
      simp [ofResolution, hmatched]
    rw [hentry]
    exact toResolution_ofResolution (fun _ => ⟨rfl, rfl⟩) key now

namespace Memory

/-- Do an operation. -/
def perform (m : Memory) (now : Time) : (o : Operation) → o.Answer × Memory
  | .store key r => ((), m.store key r now)
  | .insert e => ((), m.insert e)
  | .check key => (m.check key now, m)
  | .find key => (m.find? key, m)
  | .size => (m.size, m)
  | .isEmpty => (m.isEmpty, m)

/-- The cache after a history. -/
def after (m : Memory) (h : History) : Memory :=
  h.foldl (fun m (now, o) => (m.perform now o).2) m

/-- The cache holds the last of some entries under each key, every one under its own. -/
structure Remembers (m : Memory) (written : List Entry) : Prop where
  own : ∀ row ∈ m.entries, row.1 = row.2.addressHash
  find : ∀ key, m.find? key = lastUnder key written
  distinct : (m.entries.map (·.1)).Nodup
  keys : ∀ key, key ∈ m.entries.map (·.1) ↔ key ∈ keysOf written

section Step

variable {m : Memory} {written : List Entry}

theorem remembers_new (ttlDays : Nat) : Remembers { ttlDays } [] where
  own := by simp
  find _ := rfl
  distinct := List.nodup_nil
  keys := by simp [keysOf]

theorem mem_keys_insert {e : Entry} {key : String} :
    key ∈ (m.insert e).entries.map (·.1) ↔ key = e.addressHash ∨ key ∈ m.entries.map (·.1) := by
  by_cases hkey : key = e.addressHash <;> simp [insert, hkey]

theorem Remembers.insert (h : m.Remembers written) (e : Entry) : (m.insert e).Remembers (written ++ [e]) where
  own row hrow := by
    obtain rfl | hrow := List.mem_cons.1 hrow
    · rfl
    · exact h.own row (List.mem_filter.1 hrow).1
  find key := by
    by_cases hkey : key = e.addressHash
    · rw [hkey, find?_insert_self, lastUnder_append_self]
    · rw [find?_insert_of_ne m hkey, lastUnder_append_of_ne hkey, h.find]
  distinct := by
    -- The row that was under the key before has been taken out.
    have hfresh : e.addressHash ∉ (m.entries.filter (·.1 != e.addressHash)).map (·.1) := by simp
    have hrest : ((m.entries.filter (·.1 != e.addressHash)).map (·.1)).Nodup :=
      h.distinct.sublist (List.filter_sublist.map _)
    exact List.nodup_cons.2 ⟨hfresh, hrest⟩
  keys key := by
    rw [mem_keys_insert, h.keys]
    simp [keysOf, or_comm]

/-- An operation either leaves the cache as it is or inserts the entry that it writes. -/
theorem perform_snd (m : Memory) (now : Time) (o : Operation) :
    (m.perform now o).2 = match o.written? now with
      | some e => m.insert e
      | none => m := by
  cases o <;> rfl

theorem Remembers.perform (h : m.Remembers written) (now : Time) (o : Operation) :
    (m.perform now o).2.Remembers (written ++ (o.written? now).toList) := by
  rw [perform_snd]
  cases o.written? now with
  | none => simpa using h
  | some e => exact h.insert e

theorem ttlDays_perform (m : Memory) (now : Time) (o : Operation) : (m.perform now o).2.ttlDays = m.ttlDays := by
  cases o <;> rfl

end Step

/-- The cache remembers what was written before a history and in it. -/
theorem Remembers.after {m : Memory} {written : List Entry} (h : m.Remembers written) (history : History) :
    (m.after history).Remembers (written ++ history.writes) := by
  induction history generalizing m written with
  | nil => simpa [Memory.after, History.writes] using h
  | cons step history ih =>
    obtain ⟨now, o⟩ := step
    have hrest := ih (h.perform now o)
    rw [List.append_assoc] at hrest
    have hwrites : History.writes ((now, o) :: history) = (o.written? now).toList ++ History.writes history := by
      cases hwritten : o.written? now <;> simp [History.writes, hwritten]
    rw [hwrites]
    exact hrest

theorem ttlDays_after (m : Memory) (history : History) : (m.after history).ttlDays = m.ttlDays := by
  induction history generalizing m with
  | nil => rfl
  | cons step history ih => exact (ih _).trans (m.ttlDays_perform step.1 step.2)

theorem Remembers.size_eq {m : Memory} {written : List Entry} (h : m.Remembers written) :
    m.size = (keysOf written).length := by
  have hperm : (m.entries.map (·.1)).Perm (keysOf written) :=
    (List.perm_ext_iff_of_nodup h.distinct (List.nodup_dedup _)).2 h.keys
  rw [size, ← hperm.length_eq, List.length_map]

theorem check_eq_some_iff {m : Memory} {key : String} {now : Time} {r : Resolution} :
    m.check key now = some r ↔ ∃ e, m.find? key = some e ∧
      (m.ttlDays = 0 ∨ now - e.cachedAt < m.ttlDays * Time.day) ∧ e.toResolution = r := by
  simp [check, Entry.isFresh, Option.filter_eq_some_iff, and_assoc]

/-- After any history, the cache has the last entry that was written under each key, and finds it fresh or not; a
check tells it as long as it is not too old. It has as many entries as there were keys written to. A read changes
nothing, and a write nothing under other keys. -/
theorem remembers_last_writes (ttlDays : Nat) (history : History) :
    let m := Memory.after { ttlDays } history
    (∀ row ∈ m.entries, row.1 = row.2.addressHash) ∧
    (∀ key now r, (m.perform now (.check key)).1 = some r ↔ ∃ e, lastUnder key history.writes = some e ∧
      (ttlDays = 0 ∨ now - e.cachedAt < ttlDays * Time.day) ∧ e.toResolution = r) ∧
    (∀ key now e, lastUnder key history.writes = some e → now < e.cachedAt →
      (m.perform now (.check key)).1 = some e.toResolution) ∧
    (∀ key r now, (Entry.ofResolution key r now).toResolution =
      if r.matched then r else { r with latitude := Double.zero, longitude := Double.zero }) ∧
    (∀ key now, (m.perform now (.find key)).1 = lastUnder key history.writes) ∧
    (∀ now, (m.perform now .size).1 = (keysOf history.writes).length ∧
      ((m.perform now .isEmpty).1 = true ↔ history.writes = [])) ∧
    (∀ now o, o.written? now = none → (m.perform now o).2 = m) ∧
    (∀ now o e key, o.written? now = some e → key ≠ e.addressHash → ∀ later,
      ((m.perform now o).2.perform later (.find key)).1 = (m.perform later (.find key)).1 ∧
      ((m.perform now o).2.perform later (.check key)).1 = (m.perform later (.check key)).1) := by
  intro m
  have hm : m.Remembers history.writes := (remembers_new ttlDays).after history
  have hdays : m.ttlDays = ttlDays := ttlDays_after _ history
  have hcheck : ∀ key now r, (m.perform now (.check key)).1 = some r ↔ ∃ e, lastUnder key history.writes = some e ∧
      (ttlDays = 0 ∨ now - e.cachedAt < ttlDays * Time.day) ∧ e.toResolution = r := by
    intro key now r
    rw [← hm.find key, ← hdays]
    exact check_eq_some_iff
  refine ⟨hm.own, hcheck, fun key now e hlast hfuture => ?_, Entry.toResolution_of, fun key now => hm.find key,
    fun now => ⟨hm.size_eq, ?_⟩, fun now o hread => ?_, fun now o e key hwrite hkey later => ?_⟩
  · refine (hcheck key now _).2 ⟨e, hlast, ?_, rfl⟩
    unfold Time.day Time.second Time at *
    omega
  · have hempty : m.isEmpty = true ↔ m.size = 0 := by simp [isEmpty, size]
    rw [show (m.perform now .isEmpty).1 = m.isEmpty from rfl, hempty, hm.size_eq]
    simp [keysOf]
  · rw [perform_snd, hread]
  · have hfind : (m.perform now o).2.find? key = m.find? key := by
      rw [perform_snd, hwrite]
      exact find?_insert_of_ne m hkey
    have hcheck : (m.perform now o).2.check key later = m.check key later := by
      rw [check, check, hfind, ttlDays_perform]
    exact ⟨hfind, hcheck⟩

/-- On the day an entry of one day is due, it is found and counted, but no check tells it. -/
example :
    let m := Memory.after { ttlDays := 1 } [(5, .store "home" { matched := true }), (9, .check "home")]
    (m.perform (Time.day + 4) (.check "home")).1 = some { matched := true } ∧
      (m.perform (Time.day + 5) (.check "home")).1 = none ∧ (m.perform (Time.day + 5) .size).1 = 1 := by
  decide +kernel

end Memory

end Geocoding.Cache
