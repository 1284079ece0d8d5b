import Geocoding.Cache.Entry

/-!
# Cache in memory

Entries under their keys, the last one written for each. Reading never removes an entry: one that is too
old counts as missing until it is overwritten.
-/

namespace Geocoding.Cache

/-- A cache that lives as long as the process. -/
structure Memory where
  ttlDays : Nat
  entries : List (String × Entry) := []

namespace Memory

/-- The last entry written under a key, fresh or not. -/
def find? (m : Memory) (key : String) : Option Entry :=
  m.entries.lookup key

/-- Keep an entry under its own key. -/
def insert (m : Memory) (e : Entry) : Memory :=
  { m with entries := (e.addressHash, e) :: m.entries.filter (·.1 != e.addressHash) }

/-- Keep a resolution under a key. -/
def store (m : Memory) (key : String) (r : Resolution) (now : Time) : Memory :=
  m.insert (.ofResolution key r now)

/-- The resolution kept under a key, if it is fresh. -/
def check (m : Memory) (key : String) (now : Time) : Option Resolution :=
  ((m.find? key).filter (·.isFresh m.ttlDays now)).map Entry.toResolution

/-- The number of keys with an entry. -/
def size (m : Memory) : Nat :=
  m.entries.length

/-- No key has an entry. -/
def isEmpty (m : Memory) : Bool :=
  m.entries.isEmpty

@[simp] theorem find?_insert_self (m : Memory) (e : Entry) :
    (m.insert e).find? e.addressHash = some e := by
  simp [find?, insert]

theorem find?_insert_of_ne (m : Memory) {e : Entry} {key : String} (h : key ≠ e.addressHash) :
    (m.insert e).find? key = m.find? key := by
  have lookup_filter : ∀ entries : List (String × Entry),
      (entries.filter (·.1 != e.addressHash)).lookup key = entries.lookup key := by
    intro entries
    induction entries with
    | nil => rfl
    | cons row entries ih =>
      rw [List.filter_cons]
      by_cases hrow : row.1 = e.addressHash
      · have hkey : (key == row.1) = false := beq_false_of_ne (hrow ▸ h)
        rw [List.lookup_cons, hkey]
        simpa [hrow] using ih
      · have hkept : (row.1 != e.addressHash) = true := bne_iff_ne.2 hrow
        rw [if_pos hkept, List.lookup_cons, List.lookup_cons, ih]
  rw [find?, insert, List.lookup_cons, beq_false_of_ne h]
  exact lookup_filter m.entries

@[simp] theorem ttlDays_insert (m : Memory) (e : Entry) : (m.insert e).ttlDays = m.ttlDays := rfl

end Memory

end Geocoding.Cache
