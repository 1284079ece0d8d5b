import Geocoding.Configuration.Overrides
import Geocoding.Proofs.Double.Notation
import Geocoding.Proofs.SoundConfigurations

/-!
# Overrides by the environment

Each of the ten variables owns one field of the configuration. What a variable does is told once, for all of them: how
its text is read, and that the field is set to what the text tells. No variable touches the field of another, so a run
over all of them does to each field what its own variable does to it, and a field is told by one text alone.
-/

namespace Geocoding

/-! ## Numbers in texts -/

namespace Text

variable {s : String} {m n : Nat}

/-- The text is the number in decimal digits, of which there is one at least, and a plus sign may stand in front. -/
def Numeral (s : String) (n : Nat) : Prop :=
  ∃ digits, digits ≠ [] ∧ Double.AllDigits digits ∧ Double.digitsValue digits = n ∧
    (s.toList = digits ∨ s.toList = '+' :: digits)

theorem mapM_digitValue?_eq_some_iff {cs : List Char} {values : List Nat} :
    cs.mapM digitValue? = some values ↔ Double.AllDigits cs ∧ cs.map (·.toNat - 48) = values := by
  induction cs generalizing values with
  | nil => simp [Double.AllDigits]
  | cons c cs ih =>
    have hdigits : Double.AllDigits (c :: cs) ↔ c.isDigit = true ∧ Double.AllDigits cs := List.forall_mem_cons
    rw [hdigits, List.mapM_cons, digitValue?]
    cases c.isDigit with
    | false => simp
    | true => simp [ih, Option.bind_eq_some_iff, and_assoc]

/-- What is read of a text without its plus sign. -/
theorem read_digits_eq_some_iff {bound : Nat} {cs : List Char} :
    (do
      if cs.isEmpty then none
      let value := ofDigits 0 (← cs.mapM digitValue?)
      if value < bound then some value else none) = some n ↔
      (cs ≠ [] ∧ Double.AllDigits cs ∧ Double.digitsValue cs = n) ∧ n < bound := by
  cases cs with
  | nil => simp
  | cons c cs =>
    simp only [List.isEmpty_cons, Bool.false_eq_true, if_false, Option.bind_eq_bind, Option.bind_eq_some_iff,
      mapM_digitValue?_eq_some_iff, Option.ite_none_right_eq_some, Option.some.injEq]
    constructor
    · rintro ⟨values, ⟨hdigits, rfl⟩, hlt, rfl⟩
      exact ⟨⟨List.cons_ne_nil _ _, hdigits, rfl⟩, hlt⟩
    · rintro ⟨⟨-, hdigits, rfl⟩, hlt⟩
      exact ⟨_, ⟨hdigits, rfl⟩, hlt, rfl⟩

theorem natBelow?_eq_some_iff {bound : Nat} : natBelow? bound s = some n ↔ Numeral s n ∧ n < bound := by
  -- A plus sign is no digit, so there is one way to take the text apart.
  unfold natBelow? Numeral
  split
  next cs hs =>
    rw [read_digits_eq_some_iff]
    refine and_congr_left fun _ => ⟨fun ⟨hne, hdigits, hn⟩ => ⟨cs, hne, hdigits, hn, .inr hs⟩, ?_⟩
    rintro ⟨digits, hne, hdigits, hn, htext⟩
    rw [hs] at htext
    obtain rfl | htext := htext
    · exact absurd (hdigits '+' List.mem_cons_self) (by decide)
    · rw [List.tail_eq_of_cons_eq htext]
      exact ⟨hne, hdigits, hn⟩
  next hs =>
    rw [read_digits_eq_some_iff]
    refine and_congr_left fun _ => ⟨fun ⟨hne, hdigits, hn⟩ => ⟨_, hne, hdigits, hn, .inl rfl⟩, ?_⟩
    rintro ⟨digits, hne, hdigits, hn, htext⟩
    obtain rfl | htext := htext
    · exact ⟨hne, hdigits, hn⟩
    · exact absurd htext (hs digits)

theorem Numeral.unique (hm : Numeral s m) (hn : Numeral s n) : m = n := by
  have hread {k : Nat} (hk : Numeral s k) (hle : k ≤ m + n) : natBelow? (m + n + 1) s = some k :=
    natBelow?_eq_some_iff.2 ⟨hk, Nat.lt_succ_of_le hle⟩
  exact Option.some.inj ((hread hm (Nat.le_add_right m n)).symm.trans (hread hn (Nat.le_add_left n m)))

end Text

namespace Configuration

/-! ## Reading variables -/

/-- A text says a number between two others, both included, and nothing else but blanks around it. -/
def Says (low high : Nat) (raw : String) (n : Nat) : Prop :=
  Text.Numeral (Text.trim raw) n ∧ low ≤ n ∧ n ≤ high

theorem Says.unique {low high m n : Nat} {raw : String} (hm : Says low high raw m) (hn : Says low high raw n) : m = n :=
  hm.1.unique hn.1

/-- Reading takes the texts that say a number of the range, and refuses all others. -/
def ReadsNumber {α : Type} [NatCast α] (low high : Nat) (read : String → Except Error α) : Prop :=
  ∀ raw, Checks (read raw) (∃ n, Says low high raw n) fun a => ∃ n, Says low high raw n ∧ a = (n : α)

theorem readsNumber_readUnsigned (bits : Nat) (expected name : String) :
    ReadsNumber 0 (Nat.pow 2 bits - 1) (readUnsigned bits expected name) := by
  intro raw
  have hpos : 0 < Nat.pow 2 bits := Nat.two_pow_pos bits
  have hnumber {n : Nat} : Text.natBelow? (Nat.pow 2 bits) (Text.trim raw) = some n ↔
      Says 0 (Nat.pow 2 bits - 1) raw n := by
    rw [Text.natBelow?_eq_some_iff, Says, Nat.lt_iff_le_pred hpos]
    simp
  unfold readUnsigned
  split
  next n hn => exact .ok ⟨n, hnumber.1 hn⟩ ⟨n, hnumber.1 hn, rfl⟩
  next hnone =>
    refine ⟨fun ⟨n, hn⟩ => ?_, fun _ => ⟨_, rfl⟩⟩
    rw [hnumber.2 hn] at hnone
    cases hnone

/-- Of the numbers in a range, some may be refused afterwards. -/
theorem ReadsNumber.narrow {α : Type} [NatCast α] {low high low' high' : Nat} {read : String → Except Error Nat}
    (h : ReadsNumber low high read) {wrong : Nat → Prop} [DecidablePred wrong] {text : String}
    (hrange : ∀ n, low' ≤ n ∧ n ≤ high' ↔ (low ≤ n ∧ n ≤ high) ∧ ¬ wrong n) :
    ReadsNumber low' high' fun raw => do
      let n ← read raw
      if wrong n then throw (.config text)
      return (n : α) := by
  intro raw
  have hnumber {n : Nat} : Says low' high' raw n ↔ Says low high raw n ∧ ¬ wrong n := by
    rw [Says, Says, hrange, ← and_assoc]
  refine ((h raw).bind fun n hn => ?_).congr (and_iff_right_of_imp fun ⟨n, hn⟩ => ⟨n, (hnumber.1 hn).1⟩).symm
  obtain ⟨n, hn, rfl⟩ := hn
  -- There is no other number that the text says.
  have hright : (∃ m, Says low' high' raw m) ↔ ¬ wrong n := by
    refine ⟨fun ⟨m, hm⟩ => ?_, fun hn' => ⟨n, hnumber.2 ⟨hn, hn'⟩⟩⟩
    obtain ⟨hm, hm'⟩ := hnumber.1 hm
    rwa [hn.unique hm]
  by_cases hwrong : wrong n
  · rw [if_pos hwrong]
    exact ⟨fun hm => absurd hwrong (hright.1 hm), fun _ => ⟨text, rfl⟩⟩
  · rw [if_neg hwrong]
    exact .ok (hright.2 hwrong) ⟨n, hnumber.2 ⟨hn, hwrong⟩, rfl⟩

theorem readsNumber_readCount (name : String) : ReadsNumber 0 4294967295 (readCount name) :=
  readsNumber_readUnsigned 32 ">= 0" name

theorem readsNumber_readPositive (name : String) : ReadsNumber 1 18446744073709551615 (readPositive name) := by
  have hpow : Nat.pow 2 64 = 18446744073709551616 := by decide
  exact (readsNumber_readUnsigned 64 "> 0" name).narrow fun n => by omega

theorem readsNumber_readRating (name : String) : ReadsNumber 0 2147483647 (readRating name) :=
  (readsNumber_readCount name).narrow fun n => by omega

/-! ## Variables -/

/-- A variable: the field that it overrides, what its text tells about the field, and how the text is read. -/
structure Variable where
  name : String
  Value : Type
  field : Configuration → Value
  put : Value → Configuration → Configuration
  Tells : String → Value → Prop
  read : String → Except Error Value
  field_put : ∀ value c, field (put value c) = value
  unique : ∀ {raw value value'}, Tells raw value → Tells raw value' → value = value'
  checks : ∀ raw, Checks (read raw) (∃ value, Tells raw value) (Tells raw)

namespace Variable

variable {env : Environment} {c c' : Configuration}

/-- Override by the variable, if it is set. -/
def apply (v : Variable) (env : Environment) : Configuration → Except Error Configuration :=
  override env v.name fun c raw => (v.read raw).bind fun value => .ok (v.put value c)

/-- If the variable is set, its text tells something. -/
def Readable (v : Variable) (env : Environment) : Prop :=
  ∀ raw, env.lookup v.name = some raw → ∃ value, v.Tells raw value

/-- The field is what the text of the variable tells, or as before if the variable is not set. -/
def Follows (v : Variable) (env : Environment) (c c' : Configuration) : Prop :=
  match env.lookup v.name with
  | some raw => v.Tells raw (v.field c')
  | none => v.field c' = v.field c

/-- The variable makes no difference to that part of configurations. -/
def Spares (v : Variable) {β : Type} (part : Configuration → β) : Prop :=
  ∀ value c, part (v.put value c) = part c

/-- Two variables make no difference to each other's fields. -/
def Apart (v w : Variable) : Prop :=
  v.Spares w.field ∧ w.Spares v.field

theorem Follows.congr {v : Variable} {d d' : Configuration} (h : v.Follows env c c') (hc : v.field c = v.field d)
    (hc' : v.field c' = v.field d') : v.Follows env d d' := by
  unfold Follows at h ⊢
  rw [← hc, ← hc']
  exact h

theorem Follows.tells {v : Variable} (h : v.Follows env c c') {raw : String} (hraw : env.lookup v.name = some raw) :
    v.Tells raw (v.field c') := by
  rw [Follows, hraw] at h
  exact h

theorem Follows.readable {v : Variable} (h : v.Follows env c c') : v.Readable env :=
  fun _ hraw => ⟨_, h.tells hraw⟩

theorem Follows.unique {v : Variable} {d : Configuration} (h : v.Follows env c c') (h' : v.Follows env c d) :
    v.field c' = v.field d := by
  cases hraw : env.lookup v.name with
  | none =>
    rw [Follows, hraw] at h h'
    exact h.trans h'.symm
  | some raw => exact v.unique (h.tells hraw) (h'.tells hraw)

theorem checks_apply (v : Variable) (env : Environment) (c : Configuration) :
    Checks (v.apply env c) (v.Readable env) fun c' =>
      v.Follows env c c' ∧ ∀ {β : Type} (part : Configuration → β), v.Spares part → part c' = part c := by
  unfold apply override Readable Follows
  cases env.lookup v.name with
  | none => exact .ok nofun ⟨rfl, fun _ _ => rfl⟩
  | some raw =>
    refine ((v.checks raw).map fun value hvalue => ?_).congr (by simp)
    refine ⟨?_, fun part hpart => hpart value c⟩
    dsimp only
    rw [v.field_put]
    exact hvalue

/-- Variables that are apart do each what it does alone, one after the other. -/
theorem checks_apply_all (env : Environment) {vs : List Variable} (hvs : vs.Pairwise Apart) (c : Configuration) :
    Checks (vs.foldlM (fun c v => v.apply env c) c) (∀ v ∈ vs, v.Readable env) fun c' =>
      (∀ v ∈ vs, v.Follows env c c') ∧
        ∀ {β : Type} (part : Configuration → β), (∀ v ∈ vs, v.Spares part) → part c' = part c := by
  induction vs generalizing c with
  | nil => exact .ok nofun ⟨nofun, fun _ _ => rfl⟩
  | cons v vs ih =>
    obtain ⟨hapart, hvs⟩ := List.pairwise_cons.1 hvs
    rw [List.foldlM_cons, List.forall_mem_cons]
    refine (v.checks_apply env c).bind fun d hd => (ih hvs d).mono fun c' hc' => ?_
    obtain ⟨hfollows, hspares⟩ := hd
    obtain ⟨hrest, hspared⟩ := hc'
    refine ⟨List.forall_mem_cons.2 ⟨?_, fun w hw => ?_⟩, fun part hpart => ?_⟩
    · -- What comes later leaves the field of the first variable as it is.
      exact hfollows.congr rfl (hspared v.field fun w hw => (hapart w hw).2).symm
    · exact (hrest w hw).congr (hspares w.field (hapart w hw).1) rfl
    · rw [hspared part fun w hw => hpart w (List.mem_cons_of_mem v hw), hspares part (hpart v List.mem_cons_self)]

section Kinds

variable {α : Type} (name : String) (field : Configuration → α) (put : α → Configuration → Configuration)
  (field_put : ∀ value c, field (put value c) = value)

/-- A variable that may hold any text. -/
def ofText (told : String → α) : Variable where
  name := name
  Value := α
  field := field
  put := put
  Tells := fun raw value => value = told raw
  read := fun raw => .ok (told raw)
  field_put := field_put
  unique := fun h h' => h.trans h'.symm
  checks := fun raw => .ok ⟨told raw, rfl⟩ rfl

/-- A variable that has to hold a number of a range. -/
def ofNumber [NatCast α] (low high : Nat) (read : String → Except Error α) (reads : ReadsNumber low high read) :
    Variable where
  name := name
  Value := α
  field := field
  put := put
  Tells := fun raw value => ∃ n, Says low high raw n ∧ value = (n : α)
  read := read
  field_put := field_put
  unique := fun ⟨m, hm, h⟩ ⟨n, hn, h'⟩ => by rw [h, h', hm.unique hn]
  checks := fun raw => (reads raw).congr ⟨fun ⟨_, n, hn, _⟩ => ⟨n, hn⟩, fun ⟨n, hn⟩ => ⟨_, n, hn, rfl⟩⟩

end Kinds

end Variable

/-- The variables that override fields, in the order in which they do. -/
def overrides : List Variable := [
  .ofText "DATABASE_URL" (·.databaseUrl) (fun url c => { c with databaseUrl := url }) (fun _ _ => rfl) Text.trim,
  .ofText "GOOGLE_GEOCODING_API_KEY" (·.providers.googleApiKey)
    (fun key c => { c with providers := { c.providers with googleApiKey := key } }) (fun _ _ => rfl) Text.trim,
  .ofText "GEOCODE_CACHE_ENABLED" (·.cache.enabled)
    (fun enabled c => { c with cache := { c.cache with enabled := enabled } }) (fun _ _ => rfl) readSwitch,
  .ofNumber "GEOCODE_CACHE_TTL_DAYS" (·.cache.ttlDays)
    (fun n c => { c with cache := { c.cache with ttlDays := n } }) (fun _ _ => rfl) 0 4294967295 _
    (readsNumber_readCount "GEOCODE_CACHE_TTL_DAYS"),
  .ofText "GEOCODE_CACHE_TABLE" (·.cache.table)
    (fun table c => { c with cache := { c.cache with table := table } }) (fun _ _ => rfl) Text.trim,
  .ofNumber "GEOCODE_MAX_RATING" (·.providers.maxRating)
    (fun n c => { c with providers := { c.providers with maxRating := n } }) (fun _ _ => rfl) 0 2147483647 _
    (readsNumber_readRating "GEOCODE_MAX_RATING"),
  .ofNumber "GEOCODE_BATCH_CONCURRENCY" (·.batch.concurrency)
    (fun n c => { c with batch := { c.batch with concurrency := n } }) (fun _ _ => rfl) 1 18446744073709551615 _
    (readsNumber_readPositive "GEOCODE_BATCH_CONCURRENCY"),
  .ofNumber "GEOCODE_CENSUS_RPS" (·.rateLimits.censusPerSec)
    (fun n c => { c with rateLimits := { c.rateLimits with censusPerSec := n } }) (fun _ _ => rfl) 0 4294967295 _
    (readsNumber_readCount "GEOCODE_CENSUS_RPS"),
  .ofNumber "GEOCODE_GOOGLE_RPS" (·.rateLimits.googlePerSec)
    (fun n c => { c with rateLimits := { c.rateLimits with googlePerSec := n } }) (fun _ _ => rfl) 0 4294967295 _
    (readsNumber_readCount "GEOCODE_GOOGLE_RPS"),
  .ofText "GEOCODE_PROVIDERS" (·.providers.order)
    (fun order c => { c with providers := { c.providers with order := order } }) (fun _ _ => rfl) readList]

/-- These are all the variables that are looked up. -/
theorem names_overrides : overrides.map (·.name) = variableNames := rfl

theorem pairwise_apart : overrides.Pairwise Variable.Apart := by
  simp [overrides, Variable.Apart, Variable.Spares, Variable.ofText, Variable.ofNumber]

theorem foldl_bind_apply (env : Environment) (vs : List Variable) (x : Except Error Configuration) :
    vs.foldl (fun x v => x >>= v.apply env) x = x >>= vs.foldlM fun c v => v.apply env c := by
  induction vs generalizing x with
  | nil => exact (bind_pure x).symm
  | cons v vs ih =>
    rw [List.foldl_cons, ih, bind_assoc]
    simp only [List.foldlM_cons]

theorem applyEnvironment_eq (env : Environment) (c : Configuration) :
    applyEnvironment env c = overrides.foldlM (fun c v => v.apply env c) c := by
  have hfold : applyEnvironment env c = overrides.foldl (fun x v => x >>= v.apply env) (.ok c) := by
    unfold applyEnvironment overrides
    simp only [List.foldl_cons, List.foldl_nil, Variable.apply, Variable.ofText, Variable.ofNumber]
    rfl
  rw [hfold, foldl_bind_apply]
  rfl

/-! ## What the environment does -/

/-- The fields that no variable overrides. -/
def others (c : Configuration) : Int × String × String × Bool × Nat :=
  (c.providers.tigerMaxResults, c.providers.censusBenchmark, c.providers.censusVintage, c.providers.bulkEnabled,
    c.batch.bulkChunkSize)

theorem spares_others : ∀ v ∈ overrides, v.Spares others := by
  simp [overrides, Variable.Spares, Variable.ofText, Variable.ofNumber, others]

/-- There is nothing in a configuration but the fields of the variables and the other ones. -/
theorem eq_of_fields {c c' : Configuration} (hfields : ∀ v ∈ overrides, v.field c = v.field c')
    (hothers : others c = others c') : c = c' := by
  obtain ⟨url, ⟨enabled, ttlDays, table⟩, ⟨order, maxRating, maxResults, key, benchmark, vintage, bulk⟩,
    ⟨census, google⟩, ⟨concurrency, chunkSize⟩⟩ := c
  obtain ⟨url', ⟨enabled', ttlDays', table'⟩, ⟨order', maxRating', maxResults', key', benchmark', vintage', bulk'⟩,
    ⟨census', google'⟩, ⟨concurrency', chunkSize'⟩⟩ := c'
  simp only [overrides, Variable.ofText, Variable.ofNumber, List.forall_mem_cons] at hfields
  simp only [others, Prod.mk.injEq] at hothers
  simp only [hfields, hothers]

theorem checks_applyEnvironment (env : Environment) (c : Configuration) :
    Checks (applyEnvironment env c) (∀ v ∈ overrides, v.Readable env) fun c' =>
      (∀ v ∈ overrides, v.Follows env c c') ∧ others c' = others c := by
  rw [applyEnvironment_eq]
  exact (Variable.checks_apply_all env pairwise_apart c).mono fun c' ⟨hfollows, hspares⟩ =>
    ⟨hfollows, hspares others spares_others⟩

theorem applyEnvironment_eq_ok_iff {env : Environment} {c c' : Configuration} :
    applyEnvironment env c = .ok c' ↔ (∀ v ∈ overrides, v.Follows env c c') ∧ others c' = others c := by
  have hchecks := checks_applyEnvironment env c
  refine ⟨hchecks.outcome_of_ok, fun ⟨hfollows, hothers⟩ => ?_⟩
  obtain ⟨d, hd, hfollows', hothers'⟩ := hchecks.accepts fun v hv => (hfollows v hv).readable
  rw [hd, eq_of_fields (fun v hv => (hfollows' v hv).unique (hfollows v hv)) (hothers'.trans hothers.symm)]

/-- The numbers that a variable may hold. -/
structure NumberRange where
  name : String
  low : Nat
  high : Nat

/-- The variables that have to hold numbers. -/
def numberRanges : List NumberRange := [
  ⟨"GEOCODE_CACHE_TTL_DAYS", 0, 4294967295⟩,
  ⟨"GEOCODE_MAX_RATING", 0, 2147483647⟩,
  ⟨"GEOCODE_BATCH_CONCURRENCY", 1, 18446744073709551615⟩,
  ⟨"GEOCODE_CENSUS_RPS", 0, 4294967295⟩,
  ⟨"GEOCODE_GOOGLE_RPS", 0, 4294967295⟩]

theorem readable_iff {env : Environment} :
    (∀ v ∈ overrides, v.Readable env) ↔
      ∀ r ∈ numberRanges, ∀ raw, env.lookup r.name = some raw → ∃ n, Says r.low r.high raw n := by
  simp [overrides, numberRanges, Variable.Readable, Variable.ofText, Variable.ofNumber]

theorem bind_eq_ok_iff {α β : Type} {x : Except Error α} {f : α → Except Error β} {b : β} :
    x.bind f = .ok b ↔ ∃ a, x = .ok a ∧ f a = .ok b := by
  cases x with
  | error e => exact iff_of_false nofun nofun
  | ok a => simp [Except.bind]

theorem variables_eq (s : Sources) :
    s.variables = s.environmentFile.elim (some s.environment) (DotEnv.load s.environment) := by
  unfold Sources.variables
  cases s.environmentFile <;> rfl

theorem base_eq (s : Sources) : s.base = s.file.elim (.ok {}) parseFile := by
  unfold Sources.base
  cases s.file <;> rfl

theorem load_eq_ok_iff {s : Sources} {c' : Configuration} :
    load s = some (.ok c') ↔ ∃ env c,
      s.environmentFile.elim (some s.environment) (DotEnv.load s.environment) = some env ∧
      s.file.elim (.ok {}) parseFile = .ok c ∧ applyEnvironment env c = .ok c' ∧ c'.validate = .ok () := by
  have hread (env : Environment) : loadWith env s = s.base.bind fun c =>
      (applyEnvironment env c).bind fun d => d.validate.bind fun _ => .ok d := rfl
  simp only [load, Option.map_eq_some_iff, hread, bind_eq_ok_iff, variables_eq, base_eq]
  constructor
  · rintro ⟨env, henv, c, hc, d, hd, _, hvalid, heq⟩
    cases heq
    exact ⟨env, c, henv, hc, hd, hvalid⟩
  · rintro ⟨env, c, henv, hc, hd, hvalid⟩
    exact ⟨env, henv, c, hc, c', hd, (), hvalid, rfl⟩

/-- The environment overrides as it says, field by field. It is refused exactly if one of the variables that have to
hold numbers is set to a text that says none of its range. Otherwise every field with a variable that is set is what
the text of this variable tells, and all other fields stay as they were; so the same text gives the same field,
whatever else is set and wherever the configuration comes from. What is loaded is what the environment, to which an
environment file may add, made of the file, or of the defaults if there is none, provided that it is valid, and
therefore lies in the ranges that the engine needs. -/
theorem overrides_are_exact :
    (∀ env c, (∃ c', applyEnvironment env c = .ok c') ↔
      ∀ r ∈ numberRanges, ∀ raw, env.lookup r.name = some raw → ∃ n, Says r.low r.high raw n) ∧
    (∀ env c c', applyEnvironment env c = .ok c' ↔
      (∀ v ∈ overrides, v.Follows env c c') ∧ others c' = others c) ∧
    (∀ v ∈ overrides, ∀ env env' c c' d d' raw, env.lookup v.name = some raw → env'.lookup v.name = some raw →
      applyEnvironment env c = .ok c' → applyEnvironment env' d = .ok d' → v.field c' = v.field d') ∧
    (∀ s c', load s = some (.ok c') ↔ ∃ env c,
      s.environmentFile.elim (some s.environment) (DotEnv.load s.environment) = some env ∧
      s.file.elim (.ok {}) parseFile = .ok c ∧ applyEnvironment env c = .ok c' ∧ c'.validate = .ok ()) ∧
    ∀ s c', load s = some (.ok c') →
      c'.providers.order ≠ [] ∧
      (∀ name ∈ c'.providers.order, Text.lowerAscii (Text.trim name) ∈ ["tiger", "census", "google"]) ∧
      1 ≤ c'.batch.concurrency ∧ 1 ≤ c'.batch.bulkChunkSize ∧ c'.batch.bulkChunkSize ≤ 10000 ∧
      0 < c'.rateLimits.censusPerSec ∧ 0 < c'.rateLimits.googlePerSec ∧
      0 ≤ c'.providers.maxRating ∧ 0 < c'.providers.tigerMaxResults := by
  refine ⟨fun env c => ?_, fun env c c' => applyEnvironment_eq_ok_iff, ?_, fun s c' => load_eq_ok_iff, ?_⟩
  · exact (checks_applyEnvironment env c).exists_ok_iff.trans readable_iff
  · intro v hv env env' c c' d d' raw hraw hraw' hc hd
    have hfollows := (applyEnvironment_eq_ok_iff.1 hc).1 v hv
    have hfollows' := (applyEnvironment_eq_ok_iff.1 hd).1 v hv
    exact v.unique (hfollows.tells hraw) (hfollows'.tells hraw')
  · intro s c' hload
    obtain ⟨-, -, -, -, -, hvalid⟩ := load_eq_ok_iff.1 hload
    have h : c'.Valid := validate_eq_ok_iff.1 hvalid
    exact ⟨h.order_ne_nil, h.known, h.concurrency, h.chunkSize_pos, h.chunkSize_le, h.censusRate, h.googleRate,
      h.maxRating, h.tigerMaxResults⟩

/-- A number with a sign and blanks around it and a list in mixed case are taken, and win over both files, of which each
tells something else as well; a zero where one is too few is not taken. -/
theorem overrides_are_exact_mixed :
    let environment : Environment :=
      [("GEOCODE_CACHE_TTL_DAYS", " +090 "), ("GEOCODE_PROVIDERS", "Census, google,")]
    let env : Environment := environment ++ [("GEOCODE_MAX_RATING", "20")]
    let s : Sources := {
      environment
      environmentFile := some (Text.encode "GEOCODE_CACHE_TTL_DAYS=5\nGEOCODE_MAX_RATING=20\n")
      file := some (Text.encode "[cache]\nttl_days = 30\n[batch]\nbulk_chunk_size = 500\n") }
    let c : Configuration := { cache := { ttlDays := 30 }, batch := { bulkChunkSize := 500 } }
    let c' : Configuration := {
      cache := { ttlDays := 90 }
      providers := { order := ["census", "google"], maxRating := 20 }
      batch := { bulkChunkSize := 500 } }
    applyEnvironment env c = .ok c' ∧ load s = some (.ok c') ∧ 1 ≤ c'.batch.concurrency ∧
      ¬ ∃ c', applyEnvironment [("GEOCODE_BATCH_CONCURRENCY", "0")] {} = .ok c' := by
  intro environment env s c c'
  have happly : applyEnvironment env c = .ok c' := by decide +kernel
  -- The environment file has a say about the rating only: the days are set already.
  have henv : s.environmentFile.elim (some s.environment) (DotEnv.load s.environment) = some env := by decide +kernel
  have hfile : s.file.elim (.ok {}) parseFile = .ok c := by decide +kernel
  have hvalid : c'.validate = .ok () := by decide +kernel
  have hload : load s = some (.ok c') :=
    (overrides_are_exact.2.2.2.1 s c').2 ⟨env, c, henv, hfile, happly, hvalid⟩
  refine ⟨happly, hload, (overrides_are_exact.2.2.2.2 _ _ hload).2.2.1, fun hzero => ?_⟩
  have hrange : (⟨"GEOCODE_BATCH_CONCURRENCY", 1, 18446744073709551615⟩ : NumberRange) ∈ numberRanges := by
    simp [numberRanges]
  obtain ⟨n, hn, hpos, -⟩ := (overrides_are_exact.1 _ _).1 hzero _ hrange "0" rfl
  have hnone : Text.natBelow? 1 (Text.trim "0") = some 0 := by decide +kernel
  rw [hn.unique (Text.natBelow?_eq_some_iff.1 hnone).1] at hpos
  exact absurd hpos (by decide)

end Configuration

end Geocoding
