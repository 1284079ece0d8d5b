import Geocoding.Cache.Memory
import Geocoding.Database.CacheTable

/-!
# Two stores that answer alike

A cache keeps entries as they are in memory, but column by column in a table, where they are written by position
and read by name. As long as no entry grows too old, nobody can tell the two apart: to the same requests at the
same times they give the same replies. What is relied upon of the database is said by `Table.KeptIn`.
-/

namespace Geocoding

/-- How far from 1970 a clock can be, in either direction. -/
def Time.farthest : Time := 262144 * 366 * Time.day

/-- A clock can tell this time. -/
def Time.OnClock (t : Time) : Prop :=
  -Time.farthest ≤ t ∧ t ≤ Time.farthest

instance (t : Time) : Decidable t.OnClock :=
  inferInstanceAs (Decidable (_ ∧ _))

namespace Cache

variable {σ : Type}

/-- What is asked of a cache. -/
inductive Request where
  | store (key : String) (r : Resolution)
  | check (key : String)

/-- What the answer to a request is. -/
abbrev Request.Answer : Request → Type
  | store .. => Unit
  | check .. => Option Resolution

namespace Memory

/-- Answer a request. -/
def serve (m : Memory) (now : Time) : (q : Request) → q.Answer × Memory
  | .store key r => ((), m.store key r now)
  | .check key => (m.check key now, m)

/-- The replies to requests that are made one after the other, each at its time. -/
def replies (m : Memory) : List (Time × Request) → List ((q : Request) × Except Error q.Answer)
  | [] => []
  | (now, q) :: rest => ⟨q, .ok (m.serve now q).1⟩ :: (m.serve now q).2.replies rest

/-- Whenever a request is made, no entry is too old. -/
def StaysFresh (m : Memory) : List (Time × Request) → Prop
  | [] => True
  | (now, q) :: rest => (∀ row ∈ m.entries, row.2.isFresh m.ttlDays now) ∧ (m.serve now q).2.StaysFresh rest

instance decidableStaysFresh : (m : Memory) → (requests : List (Time × Request)) → Decidable (m.StaysFresh requests)
  | _, [] => isTrue trivial
  | m, (now, q) :: rest =>
    have := decidableStaysFresh (m.serve now q).2 rest
    inferInstanceAs (Decidable (_ ∧ _))

theorem mem_of_find? {m : Memory} {key : String} {e : Entry} (h : m.find? key = some e) : (key, e) ∈ m.entries := by
  obtain ⟨before, behind, hentries, -⟩ := List.lookup_eq_some_iff.1 h
  simp [hentries]

theorem ttlDays_serve (m : Memory) (now : Time) (q : Request) : (m.serve now q).2.ttlDays = m.ttlDays := by
  cases q <;> rfl

end Memory

namespace Table

/-- Answer a request. -/
def serve (t : Table) (now : Time) : (q : Request) → Program Sql.database (Except Error q.Answer)
  | .store key r => t.store key r now
  | .check key => t.check key

/-- The replies to requests that are made one after the other, each at its time, by a database that has a time
of its own; `none` if it breaks down. -/
def replies (t : Table) (w : Time → World Sql.database σ) :
    List (Time × Request) → σ → Option (List ((q : Request) × Except Error q.Answer))
  | [], _ => some []
  | (now, q) :: rest, s => match (t.serve now q).run (w now) s with
    | (some reply, s) => (t.replies w rest s).map (⟨q, reply⟩ :: ·)
    | (none, _) => none

/-- The columns of the table, in the order in which the statement that writes an entry lists them. -/
def columns : List String :=
  ["address_hash", "latitude", "longitude", "quality", "rating", "matched", "county_fips", "source", "cached_at"]

/-- Two rows have the same values in the columns of the table. -/
def Agree (row row' : Sql.Row) : Prop :=
  ∀ column ∈ columns, row.value column = row'.value column

/-- The table is kept in a database; `rows` has the row of each key. To write an entry replaces the row of its
key, every parameter going to the column that is listed at its position. To fetch a key, with the days that the table
sends along, finds its row, unless that has reached this age. -/
structure KeptIn (t : Table) (w : Time → World Sql.database σ) (rows : σ → String → Option Sql.Row) : Prop where
  write : ∀ now (e : Entry) s, ∃ reply s', (w now).answer (.upsert t.name e) s = (some (.ok reply), s') ∧
    (∃ row, rows s' e.addressHash = some row ∧ Agree row (columns.zip (Sql.Statement.upsert t.name e).parameters)) ∧
    ∀ key, key ≠ e.addressHash → rows s' key = rows s key
  fetch : ∀ now key days s, days = min t.ttlDays maxDays → ∃ found s',
    (w now).answer (.fetch t.name key days) s = (some (.ok found), s') ∧ rows s' = rows s ∧
    (rows s key = none → found = []) ∧
    ∀ row cachedAt, rows s key = some row → row.value "cached_at" = .time cachedAt →
      (days = 0 ∨ now - cachedAt < days * Time.day) → ∃ row', found = [row'] ∧ Agree row' row

/-- The columns by name are the parameters by position. -/
theorem zip_parameters (name : TableName) (e : Entry) :
    columns.zip (Sql.Statement.upsert name e).parameters = Sql.columnsOf e := rfl

theorem read_of_value {α : Type} {type : Sql.Value → Option α} {row : Sql.Row} {column : String} {a : α}
    (h : type (row.value column) = some a) : Sql.Row.read type row column = .ok a := by
  unfold Sql.Row.read
  rw [h]

theorem nullable_ofOption {α : Type} (type : Sql.Value → Option α) {f : α → Sql.Value}
    (htype : ∀ a, type (f a) = some a) (hnull : ∀ a, f a ≠ .null) (o : Option α) :
    Sql.nullable type (.ofOption f o) = some o := by
  cases o with
  | none => rfl
  | some a =>
    change Sql.nullable type (f a) = some (some a)
    unfold Sql.nullable
    split
    next heq => exact absurd heq (hnull a)
    next => rw [htype]; rfl

/-- An entry is read back from its columns. -/
theorem entryOfRow_of_agree {row : Sql.Row} {e : Entry} (h : Agree row (Sql.columnsOf e)) : entryOfRow row = .ok e := by
  have hvalue : ∀ {α : Type} {type : Sql.Value → Option α} {column : String} {a : α}, column ∈ columns →
      type (Sql.Row.value (Sql.columnsOf e) column) = some a → Sql.Row.read type row column = .ok a :=
    fun hcolumn htype => read_of_value (h _ hcolumn ▸ htype)
  have hdouble := nullable_ofOption Sql.Value.toDouble? (f := .double) (fun _ => rfl) (by simp)
  have htext := nullable_ofOption Sql.Value.toText? (f := .text) (fun _ => rfl) (by simp)
  have hint := nullable_ofOption Sql.Value.toInt? (f := .int) (fun _ => rfl) (by simp)
  unfold entryOfRow
  rw [hvalue (a := e.cachedAt) (by decide) rfl, hvalue (a := e.addressHash) (by decide) rfl,
    hvalue (by decide) (hdouble e.latitude), hvalue (by decide) (hdouble e.longitude),
    hvalue (by decide) (htext e.quality), hvalue (by decide) (hint e.rating), hvalue (a := e.matched) (by decide) rfl,
    hvalue (by decide) (htext e.countyFips), hvalue (by decide) (htext (some e.source))]
  rfl

/-- The row of a key is that of its entry, or there is neither. -/
def Mirrors (row : Option Sql.Row) : Option Entry → Prop
  | none => row = none
  | some e => ∃ columns, row = some columns ∧ Agree columns (Sql.columnsOf e) ∧ e.cachedAt.OnClock

section Kept

variable {t : Table} {w : Time → World Sql.database σ} {rows : σ → String → Option Sql.Row} {m : Memory}
  {now : Time} {s : σ}

/-- An entry that is fresh in memory has not reached the age limit that is sent. -/
theorem young_of_fresh {e : Entry} (hfresh : e.isFresh t.ttlDays now) (hnow : now.OnClock)
    (hcached : e.cachedAt.OnClock) :
    min t.ttlDays maxDays = 0 ∨ now - e.cachedAt < (min t.ttlDays maxDays : Nat) * Time.day := by
  obtain ⟨-, hlate⟩ := hnow
  obtain ⟨hearly, -⟩ := hcached
  simp only [Entry.isFresh, Bool.or_eq_true, decide_eq_true_eq] at hfresh
  unfold Time.farthest Time.day Time.second maxDays at *
  unfold Time at *
  omega

/-- To write an entry is to replace the row of its key. -/
theorem run_store (hkept : t.KeptIn w rows) (key : String) (r : Resolution) (now : Time) (s : σ) :
    ∃ s', (t.store key r now).run (w now) s = (some (.ok ()), s') ∧
      (∃ row, rows s' key = some row ∧ Agree row (Sql.columnsOf (.ofResolution key r now))) ∧
      ∀ key', key' ≠ key → rows s' key' = rows s key' := by
  obtain ⟨reply, s', hanswer, hrow, hothers⟩ := hkept.write now (.ofResolution key r now) s
  rw [zip_parameters] at hrow
  refine ⟨s', ?_, hrow, hothers⟩
  change Program.run (w now) (.call (.upsert t.name (.ofResolution key r now)) _) s = _
  rw [Program.run, hanswer]
  rfl

/-- To fetch a key is to find its entry, if it is fresh. -/
theorem run_fetch (hkept : t.KeptIn w rows) (key : String) {entry : Option Entry}
    (hmirrors : Mirrors (rows s key) entry) (hnow : now.OnClock) (hfresh : ∀ e ∈ entry, e.isFresh t.ttlDays now) :
    ∃ s', (t.fetch key).run (w now) s = (some (.ok entry), s') ∧ rows s' = rows s := by
  obtain ⟨found, s', hanswer, hrows, hmissing, hpresent⟩ :=
    hkept.fetch now key _ s rfl
  refine ⟨s', ?_, hrows⟩
  change Program.run (w now) (.call (.fetch t.name key (min t.ttlDays maxDays)) _) s = _
  rw [Program.run, hanswer]
  cases entry with
  | none =>
    rw [hmissing hmirrors]
    rfl
  | some e =>
    obtain ⟨row, hrow, hagree, hcached⟩ := hmirrors
    obtain ⟨row', rfl, hagree'⟩ := hpresent row e.cachedAt hrow (hagree "cached_at" (by decide))
      (young_of_fresh (hfresh e rfl) hnow hcached)
    -- What is found agrees with the entry in every column that is read.
    have hentry : entryOfRow row' = .ok e :=
      entryOfRow_of_agree fun column hcolumn => (hagree' column hcolumn).trans (hagree column hcolumn)
    simp [Sql.atMostOne, Program.run, hentry, Except.map]

theorem run_check (hkept : t.KeptIn w rows) (key : String) (hmirrors : Mirrors (rows s key) (m.find? key))
    (hm : m.ttlDays = t.ttlDays) (hnow : now.OnClock) (hfresh : ∀ e ∈ m.find? key, e.isFresh m.ttlDays now) :
    ∃ s', (t.check key).run (w now) s = (some (.ok (m.check key now)), s') ∧ rows s' = rows s := by
  obtain ⟨s', hrun, hrows⟩ := run_fetch hkept key hmirrors hnow (hm ▸ hfresh)
  refine ⟨s', ?_, hrows⟩
  have hkeeps : (m.find? key).filter (·.isFresh m.ttlDays now) = m.find? key := by
    cases hfind : m.find? key with
    | none => rfl
    | some e => exact Option.filter_some_pos (hfresh e hfind)
  change Program.run (w now) ((t.fetch key).bind _) s = _
  rw [Program.run_bind, hrun, Memory.check, hkeeps]
  rfl

/-- To a request, table and memory give the same reply, and they hold the same things afterwards. -/
theorem run_serve (hkept : t.KeptIn w rows) (hmirrors : ∀ key, Mirrors (rows s key) (m.find? key))
    (hm : m.ttlDays = t.ttlDays) (hnow : now.OnClock)
    (hfresh : ∀ row ∈ m.entries, row.2.isFresh m.ttlDays now) (q : Request) :
    ∃ s', (t.serve now q).run (w now) s = (some (.ok (m.serve now q).1), s') ∧
      ∀ key, Mirrors (rows s' key) ((m.serve now q).2.find? key) := by
  cases q with
  | check key =>
    obtain ⟨s', hrun, hrows⟩ := run_check hkept key (hmirrors key) hm hnow fun e he => hfresh _ (Memory.mem_of_find? he)
    exact ⟨s', hrun, hrows ▸ hmirrors⟩
  | store key r =>
    obtain ⟨s', hrun, ⟨row, hrow, hagree⟩, hothers⟩ := run_store hkept key r now s
    refine ⟨s', hrun, fun key' => ?_⟩
    -- The row of the key is that of the new entry, and no other row has changed.
    by_cases hkey : key' = key
    · have hself : (m.store key r now).find? key = some (.ofResolution key r now) := Memory.find?_insert_self m _
      rw [hkey, hrow]
      exact hself ▸ ⟨row, rfl, hagree, hnow⟩
    · have hother : (m.store key r now).find? key' = m.find? key' := Memory.find?_insert_of_ne m hkey
      rw [hothers key' hkey]
      exact hother ▸ hmirrors key'

theorem replies_of_mirrors (hkept : t.KeptIn w rows) {requests : List (Time × Request)}
    (hclock : ∀ q ∈ requests, q.1.OnClock) (hmirrors : ∀ key, Mirrors (rows s key) (m.find? key))
    (hm : m.ttlDays = t.ttlDays) (hfresh : m.StaysFresh requests) :
    t.replies w requests s = some (m.replies requests) := by
  induction requests generalizing m s with
  | nil => rfl
  | cons request rest ih =>
    obtain ⟨now, q⟩ := request
    obtain ⟨hnow, hrest⟩ := List.forall_mem_cons.1 hclock
    obtain ⟨s', hrun, hmirrors'⟩ := run_serve hkept hmirrors hm hnow hfresh.1 q
    rw [replies, hrun]
    simp only [ih hrest hmirrors' ((m.ttlDays_serve now q).trans hm) hfresh.2]
    rfl

end Kept

end Table

/-- A cache in a table, kept in any database and empty at first, gives the replies that a cache in memory gives, as
long as no entry grows too old. A lookup is one statement, with the days that entries count as far as a statement can
be given them, and so with no limit only if there is none. -/
theorem stores_interchangeable (t : Table) :
    (∀ (σ : Type) (w : Time → World Sql.database σ) (rows : σ → String → Option Sql.Row), t.KeptIn w rows →
      ∀ s, (∀ key, rows s key = none) → ∀ requests : List (Time × Request), (∀ q ∈ requests, q.1.OnClock) →
        Memory.StaysFresh { ttlDays := t.ttlDays } requests →
          t.replies w requests s = some (Memory.replies { ttlDays := t.ttlDays } requests)) ∧
    ∀ key, (∃ next, t.check key = .call (.fetch t.name key (min t.ttlDays 2147483647)) next ∧
        ∀ reply, ∃ answer, next reply = .done answer) ∧
      (min t.ttlDays 2147483647 = 0 ↔ t.ttlDays = 0) := by
  refine ⟨fun σ w rows hkept s hempty requests hclock hfresh => ?_, fun key => ⟨⟨_, rfl, fun reply => ?_⟩, by omega⟩⟩
  · exact Table.replies_of_mirrors hkept hclock hempty rfl hfresh
  · simp only [Program.bind]
    generalize Sql.atMostOne _ reply = row
    obtain _ | _ | row := row
    · exact ⟨_, rfl⟩
    · exact ⟨_, rfl⟩
    · simp only [Program.pure_eq_done, Program.done_bind]
      cases Table.entryOfRow row <;> exact ⟨_, rfl⟩

/-- A database with nothing but a cache table: a row under each key. -/
abbrev Shelf := List (String × Sql.Row)

namespace Shelf

/-- Write the parameters under the first of them, each in its column. -/
def write (s : Shelf) (e : Entry) (parameters : List Sql.Value) : Shelf :=
  (e.addressHash, Table.columns.zip parameters) :: s

/-- The row of a key, unless it has reached an age limit. -/
def find (s : Shelf) (now : Time) (key : String) (days : Nat) : List Sql.Row :=
  (s.lookup key).toList.filter fun row => match row.value "cached_at" with
    | .time cachedAt => days = 0 || now - cachedAt < days * Time.day
    | _ => false

/-- The database at some time. -/
def world (now : Time) : World Sql.database Shelf :=
  World.immediate (fun _ => false) fun c s => match c with
    | .upsert name e => (some (.ok []), s.write e (Sql.Statement.upsert name e).parameters)
    | .fetch _ key days => (some (.ok (s.find now key days)), s)
    | _ => (some (.error (.database "")), s)

theorem keptIn (t : Table) : t.KeptIn world fun s key => s.lookup key where
  write now e s := by
    refine ⟨[], _, rfl, ⟨_, ?_, fun _ _ => rfl⟩, fun key hkey => ?_⟩
    · simp [World.immediate, world, write]
    · simp [World.immediate, world, write, List.lookup_cons, beq_false_of_ne hkey]
  fetch now key days s _ := by
    refine ⟨_, s, rfl, rfl, fun hnone => ?_, fun row cachedAt hrow hcached hyoung => ?_⟩
    · change find s now key days = []
      simp [find, hnone]
    · refine ⟨row, ?_, fun _ _ => rfl⟩
      change find s now key days = [row]
      simpa [find, hrow, hcached] using hyoung

end Shelf

namespace Sample

/-- A table with entries that count seven days. -/
def week : Table := ⟨⟨"public.geocode_cache", by decide⟩, 7⟩

def home : Resolution where
  latitude := ⟨0x4043⟩
  source := "tiger"
  quality := some .rooftop
  matched := true

/-- An unmatched resolution that carries coordinates. -/
def stray : Resolution where
  longitude := ⟨0x4043⟩
  source := "google"
  countyFips := "12086"
  rating := -1

/-- One of the entries is written over, and the other one is almost too old in the end. -/
def requests : List (Time × Request) := [
  (0, .store "home" home),
  (1, .store "stray" stray),
  (Time.day, .store "home" { home with rating := 9 }),
  (7 * Time.day, .check "home"),
  (7 * Time.day, .check "stray"),
  (7 * Time.day, .check "")]

end Sample

theorem stores_interchangeable_week :
    Sample.week.KeptIn Shelf.world (fun s key => s.lookup key) ∧ (∀ q ∈ Sample.requests, q.1.OnClock) ∧
      Memory.StaysFresh { ttlDays := 7 } Sample.requests ∧
      (Sample.week.replies Shelf.world Sample.requests []).map (·.drop 3) = some [
        ⟨.check "home", .ok (some { Sample.home with rating := 9 })⟩,
        ⟨.check "stray", .ok (some { Sample.stray with longitude := Double.zero })⟩, ⟨.check "", .ok none⟩] := by
  have hclock : ∀ q ∈ Sample.requests, q.1.OnClock := by decide +kernel
  have hfresh : Memory.StaysFresh { ttlDays := 7 } Sample.requests := by decide +kernel
  refine ⟨Shelf.keptIn _, hclock, hfresh, ?_⟩
  rw [(stores_interchangeable Sample.week).1 Shelf Shelf.world _ (Shelf.keptIn _) [] (fun _ => rfl) _ hclock hfresh]
  rfl

end Cache

end Geocoding
