import Geocoding.Proofs.Census
import Geocoding.Proofs.Correlation
import Geocoding.Proofs.QuotedResponse

/-!
# Coordinates that are no numbers

A single lookup reads coordinates from JSON numbers, and a number beyond all doubles is an error there. A batch
reads them from texts, and takes the name of an infinity or of NaN, or a number beyond all doubles, for what it
says. So every point of a single lookup is finite, and one of a batch is if its texts denote finite numbers.
-/

namespace Geocoding

/-! ## Numbers in JSON -/

namespace Json

theorem significand_lt {acc : Nat} (h : acc < Nat.pow 2 64) (digits : List Nat) :
    (significand acc digits).1 < Nat.pow 2 64 := by
  induction digits generalizing acc with
  | nil => exact h
  | cons d digits ih =>
    unfold significand
    split
    next hfits => exact ih hfits
    next => exact h

theorem isFinite_ofNat {m : Nat} (h : m < Nat.pow 2 64) : (Double.ofNat m).isFinite = true := by
  rw [Double.ofNat, Double.isFinite_ofRatio_iff false m Nat.one_pos, Nat.cast_one, div_one]
  calc (m : ℚ) < 2 ^ (64 : Int) := by exact_mod_cast h
    _ ≤ 2 ^ (1023 : Int) := zpow_le_zpow_right₀ one_le_two (by decide)
    _ < Double.overflow := Double.lt_overflow

theorem isFinite_of_scaleByTen {x y : Double} {e : Int} {fuel : Nat} (h : scaleByTen x e fuel = some y) :
    y.isFinite = true := by
  induction fuel generalizing x e with
  | zero =>
    cases h
    rfl
  | succ fuel ih =>
    unfold scaleByTen at h
    split at h
    next =>
      dsimp only at h
      generalize (if 0 ≤ e then x.mulAbs (powerOfTen e.toNat) else x.divAbs (powerOfTen e.natAbs)) = z at h
      split at h
      next hfinite => exact Option.some.inj h ▸ hfinite
      next => cases h
    next =>
      split_ifs at h with hzero hlarge
      · rw [← Option.some.inj h, Double.isFinite, hzero]
        rfl
      · exact ih h

/-- What a number is read as is finite. -/
theorem Number.isFinite_of_toDouble? {n : Number} {x : Double} (h : n.toDouble? = some x) : x.isFinite = true := by
  have hsigned {y : Double} (hy : y.isFinite = true) : (if n.negative then y.neg else y).isFinite = true := by
    split
    next => rwa [Double.isFinite_neg]
    next => exact hy
  have hwhole := significand_lt (Nat.pow_pos Nat.two_pos) n.whole
  have hfraction := significand_lt hwhole (n.fraction.getD [])
  unfold Number.toDouble? at h
  dsimp only at h
  split at h
  next => exact Option.some.inj h ▸ hsigned (isFinite_ofNat hfraction)
  next =>
    obtain ⟨y, hy, hx⟩ := Option.bind_eq_some_iff.1 h
    exact Option.some.inj hx ▸ hsigned (isFinite_of_scaleByTen hy)

theorem isFinite_of_toDouble? {j : Json} {x : Double} (h : j.toDouble? = some x) : x.isFinite = true := by
  cases j with
  | number n => exact n.isFinite_of_toDouble? h
  | _ => cases h

/-- A list is read item by item. -/
theorem read_of_mapM {α β : Type} {read : α → Option β} {items : List α} {values : List β}
    (h : items.mapM read = some values) :
    (∀ value ∈ values, ∃ item ∈ items, read item = some value) ∧ ∀ item ∈ items, ∃ value, read item = some value := by
  induction items generalizing values with
  | nil =>
    cases h
    exact ⟨List.forall_mem_nil _, List.forall_mem_nil _⟩
  | cons item items ih =>
    rw [List.mapM_cons] at h
    obtain ⟨value, hvalue, htail⟩ := Option.bind_eq_some_iff.1 h
    obtain ⟨rest, hrest, hcons⟩ := Option.bind_eq_some_iff.1 htail
    cases hcons
    obtain ⟨hvalues, hitems⟩ := ih hrest
    refine ⟨List.forall_mem_cons.2 ⟨⟨item, List.mem_cons_self, hvalue⟩, fun v hv => ?_⟩,
      List.forall_mem_cons.2 ⟨⟨value, hvalue⟩, hitems⟩⟩
    obtain ⟨i, hi, hread⟩ := hvalues v hv
    exact ⟨i, List.mem_cons_of_mem _ hi, hread⟩

theorem required_eq_some_iff {α : Type} {read : Json → Option α} {j? : Option Json} {a : α} :
    required read j? = some a ↔ ∃ j, j? = some j ∧ read j = some a := by
  cases j? <;> simp [required]

end Json

namespace Census

/-! ## Single lookups -/

/-- The items of a body that stand for candidates. -/
def Lists (body : Bytes) (items : List Json) : Prop :=
  ∃ whole result, Json.parse? body = some whole ∧ whole.fields [["result"]] = some [some result] ∧
    result.fields [["addressMatches"]] = some [some (.array items)]

/-- The item has numbers for its coordinates, which are read as these doubles. -/
def ReadAt (item : Json) (longitude latitude : Double) : Prop :=
  ∃ address point geographies x y,
    item.fields [["matchedAddress"], ["coordinates"], ["geographies"]] = some [address, some point, geographies] ∧
    point.fields [["x"], ["y"]] = some [some x, some y] ∧
    x.toDouble? = some longitude ∧ y.toDouble? = some latitude

theorem fields_of_pointOfJson? {point : Json} {longitude latitude : Double}
    (h : pointOfJson? point = some (longitude, latitude)) :
    ∃ x y, point.fields [["x"], ["y"]] = some [some x, some y] ∧
      x.toDouble? = some longitude ∧ y.toDouble? = some latitude := by
  obtain ⟨fields, hfields, hread⟩ := Option.bind_eq_some_iff.1 h
  split at hread
  next =>
    obtain ⟨u, hu, hrest⟩ := Option.bind_eq_some_iff.1 hread
    obtain ⟨v, hv, hpair⟩ := Option.bind_eq_some_iff.1 hrest
    cases hpair
    obtain ⟨x, rfl, hx⟩ := Json.required_eq_some_iff.1 hu
    obtain ⟨y, rfl, hy⟩ := Json.required_eq_some_iff.1 hv
    exact ⟨x, y, hfields, hx, hy⟩
  next => cases hread

theorem readAt_of_ofJson? {item : Json} {c : Candidate} (h : Candidate.ofJson? item = some c) :
    ReadAt item c.longitude c.latitude := by
  obtain ⟨fields, hfields, hread⟩ := Option.bind_eq_some_iff.1 h
  split at hread
  next address coordinates geographies =>
    obtain ⟨⟨longitude, latitude⟩, hcoordinates, hrest⟩ := Option.bind_eq_some_iff.1 hread
    obtain ⟨text, -, hrest⟩ := Option.bind_eq_some_iff.1 hrest
    obtain ⟨counties, -, hc⟩ := Option.bind_eq_some_iff.1 hrest
    cases hc
    obtain ⟨point, rfl, hpoint⟩ := Json.required_eq_some_iff.1 hcoordinates
    obtain ⟨x, y, hxy, hx, hy⟩ := fields_of_pointOfJson? hpoint
    exact ⟨address, point, geographies, x, y, hfields, hxy, hx, hy⟩
  next => cases hread

theorem fields_of_candidatesOfJson? {result : Json} {candidates : List Candidate}
    (h : candidatesOfJson? result = some candidates) :
    ∃ list?, result.fields [["addressMatches"]] = some [list?] ∧
      (list? = none ∧ candidates = [] ∨
        ∃ items, list? = some (.array items) ∧ items.mapM Candidate.ofJson? = some candidates) := by
  obtain ⟨fields, hfields, hread⟩ := Option.bind_eq_some_iff.1 h
  split at hread
  next list? =>
    refine ⟨list?, hfields, ?_⟩
    cases list? with
    | none =>
      cases hread
      exact .inl ⟨rfl, rfl⟩
    | some list => cases list with
      | array items => exact .inr ⟨items, rfl, hread⟩
      | _ => cases hread
  next => cases hread

/-- Every candidate stands at the numbers of an item, and no item is left out. -/
theorem readAt_of_candidates? {body : Bytes} {candidates : List Candidate} (h : candidates? body = some candidates) :
    (∀ c ∈ candidates, ∃ item, ReadAt item c.longitude c.latitude) ∧
      ∀ items, Lists body items → ∀ item ∈ items, ∃ longitude latitude, ReadAt item longitude latitude := by
  obtain ⟨whole, hwhole, hread⟩ := Option.bind_eq_some_iff.1 h
  obtain ⟨fields, hfields, hread⟩ := Option.bind_eq_some_iff.1 hread
  split at hread
  next result? =>
    obtain ⟨result, rfl, hresult⟩ := Json.required_eq_some_iff.1 hread
    obtain ⟨list?, hlist, hcandidates⟩ := fields_of_candidatesOfJson? hresult
    -- There is one way to read the body, so the list that is read is the one that the body lists.
    have hitems : ∀ items, Lists body items → list? = some (.array items) := by
      rintro items ⟨whole', result', hwhole', hresult', hlist'⟩
      obtain rfl : whole = whole' := Option.some.inj (hwhole.symm.trans hwhole')
      obtain rfl : result = result' := by simpa [hfields] using hresult'
      simpa [hlist] using hlist'
    obtain ⟨rfl, rfl⟩ | ⟨items, rfl, hmap⟩ := hcandidates
    · exact ⟨List.forall_mem_nil _, fun items h => absurd (hitems items h) (by simp)⟩
    · obtain ⟨hfound, hread⟩ := Json.read_of_mapM hmap
      refine ⟨fun c hc => ?_, fun items' h item hitem => ?_⟩
      · obtain ⟨item, -, hc⟩ := hfound c hc
        exact ⟨item, readAt_of_ofJson? hc⟩
      · obtain rfl : items = items' := by simpa using hitems items' h
        obtain ⟨c, hc⟩ := hread item hitem
        exact ⟨_, _, readAt_of_ofJson? hc⟩
  next => cases hread

theorem ReadAt.isFinite {item : Json} {longitude latitude : Double} (h : ReadAt item longitude latitude) :
    longitude.isFinite = true ∧ latitude.isFinite = true := by
  obtain ⟨-, -, -, x, y, -, -, hx, hy⟩ := h
  exact ⟨Json.isFinite_of_toDouble? hx, Json.isFinite_of_toDouble? hy⟩

/-- The result, if it is a match, has finite coordinates. -/
def FiniteMatch (r : Resolution) : Prop :=
  r.matched = true → r.latitude.isFinite = true ∧ r.longitude.isFinite = true

theorem candidates_of_lookupOutcome {reply : Except Error Http.Response} {found? : Option Found}
    (h : lookupOutcome reply = .ok found?) :
    ∃ response candidates, reply = .ok response ∧ candidates? response.body = some candidates ∧
      best? candidates = found? := by
  unfold lookupOutcome at h
  split at h
  next => cases h
  next response =>
    split at h
    next => cases h
    next =>
      split at h
      next candidates hcandidates =>
        split_ifs at hcandidates
        exact ⟨response, candidates, rfl, hcandidates, Except.ok.inj h⟩
      next => cases h

theorem finite_of_lookupOutcome {reply : Except Error Http.Response} {found : Found}
    (h : lookupOutcome reply = .ok (some found)) : FiniteMatch found.toResolution := by
  obtain ⟨response, candidates, -, hcandidates, hbest⟩ := candidates_of_lookupOutcome h
  obtain ⟨c, hc, rfl⟩ := Option.map_eq_some_iff.1 hbest
  obtain ⟨item, hitem⟩ := (readAt_of_candidates? hcandidates).1 c (List.mem_of_mem_head? hc)
  exact fun _ => hitem.isFinite.symm

theorem lookup_eq (client : Client) (address : String) :
    client.lookup address = .look fun fired =>
      if fired then .done (.error .cancelled)
      else .call (client.lookupRequest address) fun reply => .done (lookupOutcome reply) :=
  Http.permitted_bind_send _ _

section Runs

variable {σ : Type} {w : World Http.web σ} {s : σ} {client : Client} {a : Address}

theorem finite_of_lookup {address : String} {found : Found}
    (h : ((client.lookup address).run w s).1 = some (.ok (some found))) : FiniteMatch found.toResolution := by
  have hlookup : (client.lookup address).Always
      fun outcome => ∀ found, outcome = .ok (some found) → FiniteMatch found.toResolution := by
    rw [lookup_eq]
    intro fired
    cases fired with
    | true => rintro _ ⟨⟩
    | false => exact fun reply found => finite_of_lookupOutcome
  exact hlookup.run w s _ h found rfl

/-- Whatever the service replies, a match of a single lookup is finite. -/
theorem finite_of_geocode {r : Resolution} (h : ((client.geocode a).run w s).1 = some (.ok r)) : FiniteMatch r := by
  have hunmatched : FiniteMatch (.unmatched source) := by rintro ⟨⟩
  unfold Client.geocode at h
  by_cases hline : a.oneLine = ""
  · rw [if_pos hline] at h
    cases h
    exact hunmatched
  rw [if_neg hline, Program.bind_eq_bind, Program.run_bind] at h
  cases hrun : (client.lookup a.oneLine).run w s with
  | mk outcome? s' =>
    rw [hrun] at h
    have hfound : ∀ found, outcome? = some (.ok (some found)) → FiniteMatch found.toResolution :=
      fun found houtcome => finite_of_lookup ((congrArg Prod.fst hrun).trans houtcome)
    match outcome?, h with
    | some (.ok none), h =>
      cases h
      exact hunmatched
    | some (.ok (some found)), h =>
      cases h
      exact hfound found rfl

end Runs

/-- A candidate that has no numbers for its coordinates spoils the response. -/
theorem lookupOutcome_error {response : Http.Response} {items : List Json} (hitems : Lists response.body items)
    {item : Json} (hitem : item ∈ items) (h : ∀ longitude latitude, ¬ ReadAt item longitude latitude) :
    ∃ e, lookupOutcome (.ok response) = .error e := by
  cases houtcome : lookupOutcome (.ok response) with
  | error e => exact ⟨e, rfl⟩
  | ok found? =>
    obtain ⟨_, candidates, ⟨⟩, hcandidates, -⟩ := candidates_of_lookupOutcome houtcome
    obtain ⟨longitude, latitude, hread⟩ := (readAt_of_candidates? hcandidates).2 items hitems item hitem
    exact absurd hread (h longitude latitude)

/-- Every request gets that response. -/
def Replies {σ : Type} (w : World Http.web σ) (response : Http.Response) : Prop :=
  ∀ request s, ∃ s', w.answer request s = (some (.ok response), s')

theorem run_lookup {σ : Type} {w : World Http.web σ} {response : Http.Response} (hreplies : Replies w response)
    (client : Client) (address : String) (s : σ) :
    ∃ s', (client.lookup address).run w s =
      (some (if w.fired s then .error .cancelled else lookupOutcome (.ok response)), s') := by
  rw [lookup_eq, Program.run]
  cases w.fired s with
  | true => exact ⟨s, rfl⟩
  | false =>
    obtain ⟨s', hanswer⟩ := hreplies (client.lookupRequest address) s
    exact ⟨s', by simp [Program.run, hanswer]⟩

/-- A response with a candidate that has no numbers for its coordinates is no answer to any address. -/
theorem geocode_error {σ : Type} {w : World Http.web σ} {response : Http.Response} (hreplies : Replies w response)
    {items : List Json} (hitems : Lists response.body items) {item : Json} (hitem : item ∈ items)
    (hread : ∀ longitude latitude, ¬ ReadAt item longitude latitude) (client : Client) {a : Address}
    (ha : a.oneLine ≠ "") (s : σ) : ∃ e, ((client.geocode a).run w s).1 = some (.error e) := by
  obtain ⟨e, he⟩ := lookupOutcome_error hitems hitem hread
  obtain ⟨s', hlookup⟩ := run_lookup hreplies client a.oneLine s
  rw [he] at hlookup
  unfold Client.geocode
  dsimp only
  rw [if_neg ha, Program.bind_eq_bind, Program.run_bind, hlookup]
  split_ifs <;> exact ⟨_, rfl⟩

/-! ## Batches -/

/-- The record has two texts for the point of the result. Each coordinate is what its text is read as, and is finite
just if the text denotes a finite number. -/
def ReadFrom (fields : List String) (r : Resolution) : Prop :=
  ∃ point longitude latitude, fields[5]? = some point ∧ point.toList = longitude ++ ',' :: latitude ∧
    ',' ∉ longitude ∧ Double.read? (String.ofList (Text.strip longitude)) = some r.longitude ∧
    Double.read? (String.ofList (Text.strip latitude)) = some r.latitude ∧
    (r.longitude.isFinite = true ↔ Double.DenotesFinite (Text.strip longitude)) ∧
    (r.latitude.isFinite = true ↔ Double.DenotesFinite (Text.strip latitude))

theorem readFrom_of_matchedRow? {id : String} {fields : List String} {row : BatchMatch}
    (h : matchedRow? id fields = some row) : ReadFrom fields row.toResolution := by
  obtain ⟨point, hpoint, hrow⟩ := Option.bind_eq_some_iff.1 h
  obtain ⟨⟨x, y⟩, hxy, hrow⟩ := Option.bind_eq_some_iff.1 hrow
  obtain ⟨exact, -, hrow⟩ := Option.bind_eq_some_iff.1 hrow
  obtain ⟨address, -, hrow⟩ := Option.bind_eq_some_iff.1 hrow
  cases hrow
  obtain ⟨longitude, latitude, hsplit, hcomma, hx, hy⟩ := point?_eq_some_iff.1 hxy
  have hlongitude := Double.isFinite_iff_of_read? hx
  have hlatitude := Double.isFinite_iff_of_read? hy
  rw [String.toList_ofList] at hlongitude hlatitude
  exact ⟨point, longitude, latitude, hpoint, hsplit, hcomma, hx, hy, hlongitude, hlatitude⟩

/-- A row of a match is the row of a record with a point. -/
theorem readFrom_of_mem_parseResponse {body : String} {row : BatchMatch} (h : row ∈ parseResponse body)
    (hmatched : row.toResolution.matched = true) : ∃ fields ∈ Csv.readText body, ReadFrom fields row.toResolution := by
  obtain ⟨fields, hfields, hrow⟩ := List.mem_filterMap.1 h
  refine ⟨fields, hfields, ?_⟩
  obtain ⟨id, -, hrow⟩ := Option.bind_eq_some_iff.1 hrow
  simp only at hrow
  split at hrow
  next => cases hrow
  next =>
    obtain ⟨status, -, hrow⟩ := Option.bind_eq_some_iff.1 hrow
    split at hrow
    next =>
      cases hrow
      cases hmatched
    next =>
      split at hrow
      next => exact readFrom_of_matchedRow? hrow
      next => cases hrow

/-- Each match of a batch has its point from a record of the response. -/
theorem geocodeBulk_readFrom {σ : Type} {w : World Http.web σ} {body : String} (hserves : Serves w body)
    {client : Client} {addresses : List Address} {s : σ} {answers : Answers}
    (hok : ((client.geocodeBulk addresses).run w s).1 = some (.ok answers)) {id : String} {r : Resolution}
    (hget : answers.get? id = some r) (hmatched : r.matched = true) :
    ∃ fields ∈ Csv.readText body, ReadFrom fields r := by
  obtain ⟨rfl, -⟩ := eq_answersOf hserves hok
  obtain ⟨-, hrow⟩ | ⟨-, rfl⟩ := origin_of_get? hget
  · obtain ⟨row, hlast, rfl⟩ := Option.map_eq_some_iff.1 hrow
    exact readFrom_of_mem_parseResponse (List.mem_of_mem_filter (List.mem_of_getLast? hlast)) hmatched
  · cases hmatched

/-! ## Matches -/

/-- However the service replies, a match of a single lookup is finite, for candidates whose coordinates cannot be
read as finite doubles are an error. A match of a batch has its point from two texts of a record: it is read as
what they say, and its coordinates are finite where they denote finite numbers. -/
theorem match_reads_point (client : Client) :
    (∀ {σ : Type} (w : World Http.web σ) (s : σ) (a : Address) (r : Resolution),
      ((client.geocode a).run w s).1 = some (.ok r) → FiniteMatch r) ∧
    (∀ {σ : Type} (w : World Http.web σ) (s : σ) (response : Http.Response) (items : List Json), Replies w response →
      Lists response.body items → (∃ item ∈ items, ∀ longitude latitude, ¬ ReadAt item longitude latitude) →
        ∀ a : Address, a.oneLine ≠ "" → ∃ e, ((client.geocode a).run w s).1 = some (.error e)) ∧
    ∀ {σ : Type} (w : World Http.web σ) (s : σ) (body : String), Serves w body → ∀ addresses answers,
      ((client.geocodeBulk addresses).run w s).1 = some (.ok answers) →
        ∀ id r, answers.get? id = some r → r.matched = true → ∃ fields ∈ Csv.readText body, ReadFrom fields r := by
  refine ⟨fun _ _ _ _ => finite_of_geocode, ?_, ?_⟩
  · rintro σ w s response items hreplies hitems ⟨item, hitem, hread⟩ a ha
    exact geocode_error hreplies hitems hitem hread client ha s
  · intro σ w s body hserves addresses answers hok id r hget hmatched
    exact geocodeBulk_readFrom hserves hok hget hmatched

/-- A single lookup that is answered, one that is spoilt by a number beyond all doubles, and a batch that is not. -/
theorem match_reads_point_three :
    let client : Client := { base := "", benchmark := "Public_AR_Current", vintage := "Current_Current" }
    let a : Address := { id := "7", street := "1 Elm St" }
    let near := Text.encode "[[[[\"1 ELM ST\",[-80,25]]]]]"
    let far := Text.encode "[[[[\"1 ELM ST\",[-80,1e999]]]]]"
    let body := "7,1 Elm St,Match,Exact,1 ELM ST,\"-80,1e999\",5,L\n"
    (∃ r, ((client.geocode a).run (serving near) ()).1 = some (.ok r) ∧ r.matched = true ∧ FiniteMatch r) ∧
    (∃ e, ((client.geocode a).run (serving far) ()).1 = some (.error e)) ∧
    ∃ (w : World Http.web Unit) (answers : Answers) (r : Resolution), Serves w body ∧
      ((client.geocodeBulk [a]).run w ()).1 = some (.ok answers) ∧ answers.get? "7" = some r ∧ r.matched = true ∧
      ∃ fields ∈ Csv.readText body, ReadFrom fields r := by
  intro client a near far body
  obtain ⟨hlookup, herror, hbatch⟩ := match_reads_point client
  refine ⟨?_, ?_, ?_⟩
  · let found : Found := {
      latitude := Double.ofNat 25
      longitude := (Double.ofNat 80).neg
      matchedAddress := "1 ELM ST"
      exact := true
      countyFips := none }
    have hrun : ((client.geocode a).run (serving near) ()).1 = some (.ok found.toResolution) := by decide +kernel
    exact ⟨_, hrun, rfl, hlookup _ _ _ _ hrun⟩
  · refine herror (serving far) () { body := far } _ (fun _ _ => ⟨(), rfl⟩) ⟨_, _, rfl, rfl, rfl⟩
      ⟨_, List.mem_cons_self, ?_⟩ a (by decide +kernel)
    rintro longitude latitude ⟨_, _, _, _, _, ⟨⟩, ⟨⟩, -, hy⟩
    have hnone : Json.toDouble? (.number { negative := false, whole := [1], exponent := some 999 }) = none := by
      decide +kernel
    cases hnone.symm.trans hy
  · have hserves : Serves (serving (Text.encode body)) body := serves_serving (by decide +kernel)
    obtain ⟨answers, hok⟩ := geocodeBulk_ok (s := ()) hserves client [a] (by decide +kernel) rfl
    obtain ⟨r, hget, hmatched⟩ : ∃ r, answers.get? "7" = some r ∧ r.matched = true := by
      have hanswers := (eq_answersOf hserves hok).1
      have hget : (answersOf [a] (parseResponse body)).get? "7" = some {
          latitude := Double.infinity false
          longitude := (Double.ofNat 80).neg
          source
          quality := some .rooftop
          matched := true } := by decide +kernel
      exact ⟨_, hanswers ▸ hget, rfl⟩
    exact ⟨_, answers, r, hserves, hok, hget, hmatched, hbatch _ () body hserves [a] answers hok "7" r hget hmatched⟩

/-- Texts that name NaN and an infinity make a match. -/
theorem geocodeBulk_not_finite :
    let client : Client := { base := "", benchmark := "Public_AR_Current", vintage := "Current_Current" }
    let addresses : List Address := [{ id := "0", street := "x" }]
    let body := "\"0\",\"x\",\"Match\",\"Exact\",\"X\",\"NaN,inf\",\"1\",\"L\"\n"
    ∃ (w : World Http.web Unit) (answers : Answers) (r : Resolution), Serves w body ∧
      ((client.geocodeBulk addresses).run w ()).1 = some (.ok answers) ∧ answers.get? "0" = some r ∧
      r.latitude = Double.infinity false ∧ r.longitude = Double.nan ∧ ¬ FiniteMatch r := by
  intro client addresses body
  have hserves : Serves (serving (Text.encode body)) body := serves_serving (by decide +kernel)
  obtain ⟨answers, hok⟩ := geocodeBulk_ok (s := ()) hserves client addresses (by decide +kernel) rfl
  have hget : (answersOf addresses (parseResponse body)).get? "0" = some {
      latitude := Double.infinity false
      longitude := Double.nan
      source
      quality := some .rooftop
      matched := true } := by decide +kernel
  rw [← (eq_answersOf hserves hok).1] at hget
  refine ⟨_, answers, _, hserves, hok, hget, rfl, rfl, fun hfinite => ?_⟩
  have hinfinite := (hfinite rfl).1
  rw [Double.not_isFinite_infinity] at hinfinite
  cases hinfinite

end Census

end Geocoding
