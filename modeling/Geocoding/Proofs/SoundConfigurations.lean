import Geocoding.Configuration.Validation
import Geocoding.Proofs.TableNames
import Geocoding.Setup

/-!
# Sound configurations

When an engine can be built from a configuration, without a database behind it, and how this relates to validation.
Building makes its checks one after the other and stops at the first that fails, so each of them is described by a
condition and by what it brings if the condition holds, and the description of the whole is put together from these.
Validation looks at other things too, but not at repeated providers or at the spelling of the table.
-/

namespace Geocoding

variable {α β : Type}

/-! ## Checks -/

/-- A check that succeeds exactly under a condition, with an outcome of that kind, and otherwise refuses the
configuration. -/
structure Checks (x : Except Error α) (condition : Prop) (outcome : α → Prop) : Prop where
  accepts : condition → ∃ a, x = .ok a ∧ outcome a
  refuses : ¬ condition → ∃ text, x = .error (.config text)

namespace Checks

variable {x : Except Error α} {condition condition' : Prop} {outcome : α → Prop} {outcome' : β → Prop}

theorem ok {a : α} (hc : condition) (ha : outcome a) : Checks (.ok a) condition outcome :=
  ⟨fun _ => ⟨a, rfl, ha⟩, fun hnot => absurd hc hnot⟩

theorem congr (h : Checks x condition outcome) (hiff : condition' ↔ condition) : Checks x condition' outcome :=
  ⟨fun hc => h.accepts (hiff.1 hc), fun hc => h.refuses (mt hiff.2 hc)⟩

theorem mono {outcome₂ : α → Prop} (h : Checks x condition outcome) (himp : ∀ a, outcome a → outcome₂ a) :
    Checks x condition outcome₂ where
  accepts hc := (h.accepts hc).imp fun a ha => ⟨ha.1, himp a ha.2⟩
  refuses := h.refuses

/-- One check after the other. -/
theorem bind {f : α → Except Error β} (h : Checks x condition outcome)
    (hf : ∀ a, outcome a → Checks (f a) condition' outcome') : Checks (x.bind f) (condition ∧ condition') outcome' where
  accepts hc := by
    obtain ⟨a, rfl, ha⟩ := h.accepts hc.1
    exact (hf a ha).accepts hc.2
  refuses hc := by
    by_cases hfirst : condition
    · obtain ⟨a, rfl, ha⟩ := h.accepts hfirst
      exact (hf a ha).refuses fun hsecond => hc ⟨hfirst, hsecond⟩
    · obtain ⟨text, rfl⟩ := h.refuses hfirst
      exact ⟨text, rfl⟩

/-- Something is made of what a check brings. -/
theorem map {g : α → β} (h : Checks x condition outcome) (hg : ∀ a, outcome a → outcome' (g a)) :
    Checks (x.bind fun a => .ok (g a)) condition outcome' :=
  (h.bind fun a ha => .ok trivial (hg a ha)).congr (and_iff_left trivial).symm

/-- A check that refuses by itself in front of the others. -/
theorem guard {wrong : Prop} [Decidable wrong] {text : String} (h : ¬ wrong → Checks x condition outcome) :
    Checks (if wrong then .error (.config text) else x) (¬ wrong ∧ condition) outcome := by
  by_cases hwrong : wrong
  · rw [if_pos hwrong]
    exact ⟨fun hc => absurd hwrong hc.1, fun _ => ⟨text, rfl⟩⟩
  · rw [if_neg hwrong]
    exact (h hwrong).congr (and_iff_right hwrong)

theorem exists_ok_iff (h : Checks x condition outcome) : (∃ a, x = .ok a) ↔ condition := by
  refine ⟨fun ⟨a, ha⟩ => ?_, fun hc => (h.accepts hc).imp fun a ha => ha.1⟩
  by_contra hc
  obtain ⟨text, htext⟩ := h.refuses hc
  cases ha.symm.trans htext

theorem outcome_of_ok (h : Checks x condition outcome) {a : α} (ha : x = .ok a) : outcome a := by
  obtain ⟨b, hb, houtcome⟩ := h.accepts (h.exists_ok_iff.1 ⟨a, ha⟩)
  cases ha.symm.trans hb
  exact houtcome

theorem config_of_error (h : Checks x condition outcome) {e : Error} (he : x = .error e) :
    ∃ text, e = .config text := by
  have hnot : ¬ condition := fun hc => by
    obtain ⟨a, ha, -⟩ := h.accepts hc
    cases ha.symm.trans he
  obtain ⟨text, htext⟩ := h.refuses hnot
  exact ⟨text, Except.error.inj (he.symm.trans htext)⟩

end Checks

/-! ## Orders -/

namespace ProviderKind

/-- A name as it is compared: trimmed, and ASCII letters in lower case. -/
def word (name : String) : String :=
  Text.lowerAscii (Text.trim name)

/-- The words for providers. -/
def words : List String :=
  ["tiger", "census", "google"]

theorem ofName?_eq_some_iff {s : String} {kind : ProviderKind} : ofName? s = some kind ↔ kind.name = s := by
  constructor
  · intro h
    unfold ofName? at h
    split at h
    · cases h; rfl
    · cases h; rfl
    · cases h; rfl
    · cases h
  · rintro rfl
    cases kind with
    | tiger => rfl
    | census => rfl
    | google => rfl

theorem name_injective : Function.Injective name := by
  intro kind kind' h
  exact Option.some.inj ((ofName?_eq_some_iff.2 rfl).symm.trans (ofName?_eq_some_iff.2 h.symm))

theorem isSome_ofName?_iff {s : String} : (ofName? s).isSome = true ↔ s ∈ words := by
  unfold ofName?
  split <;> simp_all [words]

theorem checks_parse (s : String) : Checks (parse s) (word s ∈ words) fun kind => kind.name = word s := by
  rw [← isSome_ofName?_iff]
  unfold parse
  dsimp only
  split
  · next kind h =>
    have hknown : (ofName? (word s)).isSome = true := by
      rw [word, h]
      rfl
    exact .ok hknown (ofName?_eq_some_iff.1 h)
  · next h =>
    have hunknown : (ofName? (word s)).isSome = false := by
      rw [word, h]
      rfl
    exact {
      accepts := fun hknown => absurd (hunknown.symm.trans hknown) Bool.false_ne_true
      refuses := fun _ => ⟨_, rfl⟩ }

/-- The rest of an order is read if its words are known, and none is there twice or was there before. -/
theorem checks_parseAfter (seen : List ProviderKind) (names : List String) :
    Checks (parseAfter seen names)
      ((∀ s ∈ names, word s ∈ words) ∧ (names.map word).Nodup ∧ ∀ s ∈ names, word s ∉ seen.map name)
      fun kinds => kinds.map name = names.map word := by
  induction names generalizing seen with
  | nil => exact .ok ⟨nofun, List.nodup_nil, nofun⟩ rfl
  | cons s names ih =>
    have hread : parseAfter seen (s :: names) = (parse s).bind fun kind =>
        if seen.contains kind = true then .error (.config s!"provider '{kind.name}' listed twice")
        else (parseAfter (kind :: seen) names).bind fun kinds => .ok (kind :: kinds) := rfl
    -- Once its word is known, a name must be new, and counts as seen for the names behind it.
    have hrest : ∀ kind, kind.name = word s →
        Checks (if seen.contains kind = true then .error (.config s!"provider '{kind.name}' listed twice")
            else (parseAfter (kind :: seen) names).bind fun kinds => .ok (kind :: kinds))
          (word s ∉ seen.map name ∧ (∀ t ∈ names, word t ∈ words) ∧ (names.map word).Nodup ∧
            ∀ t ∈ names, word t ∉ word s :: seen.map name)
          fun kinds => kinds.map name = (s :: names).map word := by
      intro kind hkind
      have hnew : word s ∉ seen.map name ↔ ¬ seen.contains kind = true := by
        rw [← hkind, List.mem_map_of_injective name_injective, List.contains_iff_mem]
      refine (Checks.guard fun _ => (ih (kind :: seen)).map fun kinds hkinds => ?_).congr ?_
      · rw [List.map_cons, List.map_cons, hkind, hkinds]
      · rw [hnew, List.map_cons, hkind]
    rw [hread]
    refine ((checks_parse s).bind hrest).congr ?_
    simp only [List.map_cons, List.nodup_cons, List.mem_cons, List.mem_map, not_or]
    grind

theorem checks_parseOrder (names : List String) :
    Checks (parseOrder names) (names ≠ [] ∧ (∀ s ∈ names, word s ∈ words) ∧ (names.map word).Nodup)
      fun kinds => kinds.map name = names.map word := by
  refine (Checks.guard fun _ => checks_parseAfter [] names).congr ?_
  simp [List.isEmpty_iff]

end ProviderKind

/-! ## Backends and the cache -/

namespace Configuration

/-- The rate that a provider is asked at, if it has one, lets calls through. -/
def HasRate (c : Configuration) : ProviderKind → Prop
  | .tiger => True
  | .census => 0 < c.rateLimits.censusPerSec
  | .google => 0 < c.rateLimits.googlePerSec

theorem checks_ofRate (name : String) (rate : Nat) :
    Checks (RateLimiter.ofRate name rate) (0 < rate) fun _ => True := by
  unfold RateLimiter.ofRate
  split
  · next h => exact .ok h trivial
  · next h => exact ⟨fun hrate => absurd hrate h, fun _ => ⟨_, rfl⟩⟩

/-- Without a database, every provider but the one that needs it has a backend. -/
theorem checks_backend (c : Configuration) (kind : ProviderKind) :
    Checks (c.backend false kind) (c.HasRate kind) fun b =>
      (b.toList.map fun b => b.toProvider.name) = [kind.name].filter (· ≠ "tiger") := by
  cases kind with
  | tiger => exact .ok trivial rfl
  | census => exact (checks_ofRate _ _).map fun _ _ => rfl
  | google => exact (checks_ofRate _ _).map fun _ _ => rfl

theorem checks_backends (c : Configuration) (kinds : List ProviderKind) :
    Checks (c.backends false kinds) (∀ kind ∈ kinds, c.HasRate kind) fun bs =>
      (bs.map fun b => b.toProvider.name) = (kinds.map ProviderKind.name).filter (· ≠ "tiger") := by
  induction kinds with
  | nil => exact .ok nofun rfl
  | cons kind kinds ih =>
    have hread : c.backends false (kind :: kinds) = (c.backend false kind).bind fun b =>
        (c.backends false kinds).bind fun bs => .ok (b.toList ++ bs) := rfl
    rw [hread, List.forall_mem_cons]
    refine (checks_backend c kind).bind fun b hb => ih.map fun bs hbs => ?_
    rw [List.map_append, hb, hbs, ← List.filter_append]
    rfl

/-- Without a database, the cache is in memory, but its table has to have a name all the same. -/
theorem checks_cacheStore (c : Configuration) :
    Checks (c.cacheStore false) (c.cache.enabled = true → Cache.NamesTable (Text.trim c.cache.table).toList)
      fun store => store = if c.cache.enabled then .memory c.cache.ttlDays else .none := by
  have htable : Checks (Cache.TableName.parse c.cache.table) (Cache.NamesTable (Text.trim c.cache.table).toList)
      fun _ => True := {
    accepts := fun h => (Cache.TableName.exists_parse_eq_ok_iff.2 h).imp fun _ hname => ⟨hname, trivial⟩
    refuses := fun h => ⟨_, Cache.TableName.parse_eq_error_iff.2 ⟨rfl, h⟩⟩ }
  cases henabled : c.cache.enabled with
  | false =>
    have hread : c.cacheStore false = .ok .none := by
      rw [cacheStore, henabled]
      rfl
    rw [hread]
    exact .ok (fun h => absurd h Bool.false_ne_true) rfl
  | true =>
    have hread : c.cacheStore false =
        (Cache.TableName.parse c.cache.table).bind fun _ => .ok (.memory c.cache.ttlDays) := by
      rw [cacheStore, henabled]
      rfl
    rw [hread]
    refine (htable.map fun _ _ => ?_).congr (forall_prop_of_true rfl)
    rfl

/-! ## Engines -/

open ProviderKind (word words)

/-- What a configuration has to be like for an engine to be built from it, without a database. -/
structure Sound (c : Configuration) : Prop where
  order_ne_nil : c.providers.order ≠ []
  known : ∀ name ∈ c.providers.order, word name ∈ ["tiger", "census", "google"]
  distinct : (c.providers.order.map word).Nodup
  concurrency : 1 ≤ c.batch.concurrency
  censusRate : "census" ∈ c.providers.order.map word → 0 < c.rateLimits.censusPerSec
  googleRate : "google" ∈ c.providers.order.map word → 0 < c.rateLimits.googlePerSec
  table : c.cache.enabled = true → Cache.NamesTable (Text.trim c.cache.table).toList

/-- What is set up as a configuration says. -/
structure SetUpAs (c : Configuration) (u : Setup) : Prop where
  names : u.engine.names = (c.providers.order.map word).filter (· ≠ "tiger")
  caching : u.engine.caching = c.cache.enabled

theorem forall_hasRate_iff (c : Configuration) {kinds : List ProviderKind} {ws : List String}
    (h : kinds.map ProviderKind.name = ws) :
    (∀ kind ∈ kinds, c.HasRate kind) ↔
      ("census" ∈ ws → 0 < c.rateLimits.censusPerSec) ∧ ("google" ∈ ws → 0 < c.rateLimits.googlePerSec) := by
  subst h
  have hcensus : "census" ∈ kinds.map ProviderKind.name ↔ .census ∈ kinds :=
    List.mem_map_of_injective (a := .census) ProviderKind.name_injective
  have hgoogle : "google" ∈ kinds.map ProviderKind.name ↔ .google ∈ kinds :=
    List.mem_map_of_injective (a := .google) ProviderKind.name_injective
  rw [hcensus, hgoogle]
  constructor
  · exact fun h => ⟨h .census, h .google⟩
  · rintro ⟨hc, hg⟩ kind hkind
    cases kind with
    | tiger => trivial
    | census => exact hc hkind
    | google => exact hg hkind

theorem sound_iff (c : Configuration) :
    c.Sound ↔ (c.providers.order ≠ [] ∧ (∀ name ∈ c.providers.order, word name ∈ words) ∧
        (c.providers.order.map word).Nodup) ∧
      1 ≤ c.batch.concurrency ∧
      (("census" ∈ c.providers.order.map word → 0 < c.rateLimits.censusPerSec) ∧
        ("google" ∈ c.providers.order.map word → 0 < c.rateLimits.googlePerSec)) ∧
      (c.cache.enabled = true → Cache.NamesTable (Text.trim c.cache.table).toList) :=
  ⟨fun h => ⟨⟨h.order_ne_nil, h.known, h.distinct⟩, h.concurrency, ⟨h.censusRate, h.googleRate⟩, h.table⟩,
    fun ⟨⟨hne, hknown, hdistinct⟩, hconcurrency, ⟨hcensus, hgoogle⟩, htable⟩ =>
      ⟨hne, hknown, hdistinct, hconcurrency, hcensus, hgoogle, htable⟩⟩

/-- The engine that a configuration is set up with, once its backends and its cache are. -/
theorem setUpAs_of {c : Configuration} {backends : List Backend} {store : CacheStore}
    (hbackends : (backends.map fun b => b.toProvider.name) = (c.providers.order.map word).filter (· ≠ "tiger"))
    (hstore : store = if c.cache.enabled then .memory c.cache.ttlDays else .none) (concurrency chunkSize : Nat) :
    c.SetUpAs { backends, store, concurrency, chunkSize } where
  names := by
    rw [← hbackends]
    exact List.map_map
  caching := by
    subst hstore
    cases h : c.cache.enabled <;> rfl

theorem checks_setup (c : Configuration) : Checks (c.setup false) c.Sound c.SetUpAs := by
  have hread : c.setup false = (ProviderKind.parseOrder c.providers.order).bind fun order =>
      if c.batch.concurrency = 0 then .error (.config "batch concurrency must be at least 1")
      else (c.backends false order).bind fun backends => (c.cacheStore false).bind fun store =>
        .ok { backends, store, concurrency := c.batch.concurrency, chunkSize := c.batch.bulkChunkSize } := rfl
  rw [hread, sound_iff]
  refine (ProviderKind.checks_parseOrder c.providers.order).bind fun order horder => ?_
  refine (Checks.guard fun _ => (c.checks_backends order).bind fun backends hbackends =>
    c.checks_cacheStore.map fun store hstore => ?_).congr ?_
  · rw [horder] at hbackends
    exact setUpAs_of hbackends hstore _ _
  · rw [c.forall_hasRate_iff horder, Nat.one_le_iff_ne_zero]

/-! ## Validation -/

theorem isKnownProvider_iff {name : String} : isKnownProvider name = true ↔ word name ∈ words :=
  ProviderKind.isSome_ofName?_iff

theorem complaint_eq_nil_iff {wrong : Bool} {text : String} : complaint wrong text = [] ↔ wrong = false := by
  cases wrong <;> simp [complaint]

theorem orderIssues_eq_nil_iff {order : List String} :
    orderIssues order = [] ↔ order ≠ [] ∧ ∀ name ∈ order, word name ∈ words := by
  simp [orderIssues, complaint_eq_nil_iff, isKnownProvider_iff]

/-- Nothing is wrong with a configuration, as far as validation looks. -/
structure Valid (c : Configuration) : Prop where
  order_ne_nil : c.providers.order ≠ []
  known : ∀ name ∈ c.providers.order, word name ∈ words
  maxRating : 0 ≤ c.providers.maxRating
  tigerMaxResults : 0 < c.providers.tigerMaxResults
  censusBenchmark : Text.isBlankText c.providers.censusBenchmark = false
  censusVintage : Text.isBlankText c.providers.censusVintage = false
  censusRate : 0 < c.rateLimits.censusPerSec
  googleRate : 0 < c.rateLimits.googlePerSec
  concurrency : 0 < c.batch.concurrency
  chunkSize_pos : 0 < c.batch.bulkChunkSize
  chunkSize_le : c.batch.bulkChunkSize ≤ Census.maxRows
  table : c.cache.enabled = true → Text.isBlankText c.cache.table = false

theorem issues_eq_nil_iff {c : Configuration} : c.issues = [] ↔ c.Valid := by
  simp only [issues, List.append_eq_nil_iff, complaint_eq_nil_iff, orderIssues_eq_nil_iff, decide_eq_false_iff_not,
    beq_eq_false_iff_ne, Nat.ne_zero_iff_zero_lt, Int.not_lt, Int.not_le, Nat.not_lt, Bool.and_eq_false_imp, and_assoc]
  constructor
  · rintro ⟨hne, hknown, hrating, hresults, hbenchmark, hvintage, hcensus, hgoogle, hconcurrency, hpos, hle, htable⟩
    exact ⟨hne, hknown, hrating, hresults, hbenchmark, hvintage, hcensus, hgoogle, hconcurrency, hpos, hle, htable⟩
  · rintro ⟨hne, hknown, hrating, hresults, hbenchmark, hvintage, hcensus, hgoogle, hconcurrency, hpos, hle, htable⟩
    exact ⟨hne, hknown, hrating, hresults, hbenchmark, hvintage, hcensus, hgoogle, hconcurrency, hpos, hle, htable⟩

theorem validate_eq_ok_iff {c : Configuration} : c.validate = .ok () ↔ c.Valid := by
  rw [← issues_eq_nil_iff, ← List.isEmpty_iff, validate]
  cases c.issues.isEmpty <;> simp

/-- What is left to be found out about a valid configuration when an engine is built from it. -/
theorem Valid.sound_iff {c : Configuration} (h : c.Valid) :
    c.Sound ↔ (c.providers.order.map word).Nodup ∧
      (c.cache.enabled = true → Cache.NamesTable (Text.trim c.cache.table).toList) :=
  ⟨fun hsound => ⟨hsound.distinct, hsound.table⟩,
    fun ⟨hdistinct, htable⟩ => ⟨h.order_ne_nil, h.known, hdistinct, h.concurrency, fun _ => h.censusRate,
      fun _ => h.googleRate, htable⟩⟩

/-- An engine is built, without a database, exactly from the sound configurations; it asks the providers of the order
but the one by database, in that order, and it has a cache if the cache is enabled. A configuration that is not sound
is refused as such. Of the valid ones, those are refused that list a provider twice or enable a cache in a table that
has no name. -/
theorem setup_accepts_sound (c : Configuration) :
    ((∃ u, c.setup false = .ok u) ↔ c.Sound) ∧
    (∀ e, c.setup false = .error e → ∃ text, e = .config text) ∧
    (∀ u, c.setup false = .ok u →
      u.engine.names = (c.providers.order.map word).filter (· ≠ "tiger") ∧ u.engine.caching = c.cache.enabled) ∧
    (c.validate = .ok () → ((∃ e, c.setup false = .error e) ↔
      ¬ (c.providers.order.map word).Nodup ∨
      c.cache.enabled = true ∧ ¬ Cache.NamesTable (Text.trim c.cache.table).toList)) := by
  have hchecks := c.checks_setup
  refine ⟨hchecks.exists_ok_iff, fun e => hchecks.config_of_error, fun u hu => ?_, fun hvalid => ?_⟩
  · exact ⟨(hchecks.outcome_of_ok hu).names, (hchecks.outcome_of_ok hu).caching⟩
  · have hrefused : (∃ e, c.setup false = .error e) ↔ ¬ c.Sound := by
      rw [← hchecks.exists_ok_iff]
      cases c.setup false <;> simp
    rw [hrefused, (validate_eq_ok_iff.1 hvalid).sound_iff, not_and_or, Classical.not_imp]

/-- A valid configuration that lists a provider twice, in different spellings, and one that is set up. -/
theorem setup_accepts_sound_twice :
    let c : Configuration := { providers := { order := ["tiger", " Census ", "GOOGLE"] } }
    let twice : Configuration := { c with providers := { c.providers with order := ["census", " Census "] } }
    (∃ u, c.setup false = .ok u ∧ u.engine.names = ["census", "google"] ∧ u.engine.caching = true) ∧
      twice.validate = .ok () ∧ ∃ text, twice.setup false = .error (.config text) := by
  intro c twice
  have htable : Cache.NamesTable (Text.trim c.cache.table).toList := by
    rw [← Cache.isTableName_iff]
    decide
  have hsound : c.Sound := {
    order_ne_nil := by decide
    known := by decide
    distinct := by decide
    concurrency := by decide
    censusRate := fun _ => by decide
    googleRate := fun _ => by decide
    table := fun _ => htable }
  obtain ⟨u, hu⟩ := (setup_accepts_sound c).1.2 hsound
  obtain ⟨hnames, hcaching⟩ := (setup_accepts_sound c).2.2.1 u hu
  have horder : (c.providers.order.map word).filter (· ≠ "tiger") = ["census", "google"] := by decide
  have hvalid : twice.validate = .ok () := by decide
  have hrepeated : ¬ (twice.providers.order.map word).Nodup := by decide
  obtain ⟨e, he⟩ := ((setup_accepts_sound twice).2.2.2 hvalid).2 (.inl hrepeated)
  obtain ⟨text, rfl⟩ := (setup_accepts_sound twice).2.1 e he
  exact ⟨⟨u, hu, hnames.trans horder, hcaching⟩, hvalid, text, he⟩

end Configuration

end Geocoding
