import Geocoding.Census.Oneline
import Geocoding.Google
import Geocoding.Proofs.Utf8
import Mathlib.Data.List.TakeWhile

/-!
# Texts in the query of a request

Texts that users supply, addresses among them, travel in the query of a request. A byte of such a text is kept, is
written as a plus sign, or is escaped, and each of the three is read back as that byte; and none of them is a sign
that ends a value, a pair or the query. So whatever the texts hold, the service reads the pairs that were meant, and
requests that differ in a text differ in their targets.
-/

namespace Geocoding.Http

namespace Form

/-! ## Bytes -/

/-- The character can stand in the query without ending a name, a value or the query itself. -/
def Inert (c : Char) : Prop :=
  c ≠ '=' ∧ c ≠ '&' ∧ c ≠ '#'

instance (c : Char) : Decidable (Inert c) :=
  inferInstanceAs (Decidable (c ≠ '=' ∧ c ≠ '&' ∧ c ≠ '#'))

/-- There are 256 bytes. -/
theorem exists_ofNat_eq (b : UInt8) : ∃ n : Fin 256, UInt8.ofNat n = b :=
  ⟨⟨b.toNat, b.toNat_lt⟩, UInt8.ofNat_toNat⟩

theorem inert_of_mem_encodeByte (b : UInt8) : ∀ c ∈ encodeByte b, Inert c := by
  have hall : ∀ n : Fin 256, ((encodeByte (UInt8.ofNat n)).all fun c => decide (Inert c)) = true := by decide +kernel
  obtain ⟨n, rfl⟩ := exists_ofNat_eq b
  exact fun c hc => of_decide_eq_true (List.all_eq_true.1 (hall n) c hc)

/-- A kept byte is an ASCII character that begins neither a space nor an escape. -/
theorem keeps_spec {b : UInt8} (h : keeps b = true) :
    Char.ofNat b.toNat ≠ '+' ∧ Char.ofNat b.toNat ≠ '%' ∧ (Char.ofNat b.toNat).toNat = b.toNat ∧
      b.toNat < 128 := by
  have hall : ∀ n : Fin 256, keeps (UInt8.ofNat n) = true → Char.ofNat (UInt8.ofNat n).toNat ≠ '+' ∧
      Char.ofNat (UInt8.ofNat n).toNat ≠ '%' ∧
      (Char.ofNat (UInt8.ofNat n).toNat).toNat = (UInt8.ofNat n).toNat ∧ (UInt8.ofNat n).toNat < 128 := by
    decide +kernel
  obtain ⟨n, rfl⟩ := exists_ofNat_eq b
  exact hall n h

theorem hexValue?_toUpper {n : Nat} (h : n < 16) : Text.hexValue? (Text.hexDigit n).toUpper = some n := by
  have hall : ∀ n : Fin 16, Text.hexValue? (Text.hexDigit n).toUpper = some n.val := by decide
  exact hall ⟨n, h⟩

theorem decodeBytes_char {c : Char} (hplus : c ≠ '+') (hpercent : c ≠ '%') (s : List Char) :
    decodeBytes (c :: s) = Text.encode (String.singleton c) ++ decodeBytes s := by
  rw [decodeBytes]
  · exact hplus
  · rintro a b s' rfl
    exact absurd rfl hpercent

theorem decodeBytes_escape {a b : Char} {x y : Nat} (ha : Text.hexValue? a = some x) (hb : Text.hexValue? b = some y)
    (s : List Char) : decodeBytes ('%' :: a :: b :: s) = UInt8.ofNat (16 * x + y) :: decodeBytes s := by
  rw [decodeBytes, ha, hb]

/-- A byte is read back, whichever way it was written. -/
theorem decodeBytes_encodeByte (b : UInt8) (s : List Char) :
    decodeBytes (encodeByte b ++ s) = b :: decodeBytes s := by
  unfold encodeByte
  split
  · next hkeeps =>
    -- A byte that is kept is a character of its own: no plus sign, and not the start of an escape.
    obtain ⟨hplus, hpercent, hcode, hascii⟩ := keeps_spec hkeeps
    have hbyte : Text.encode (String.singleton (Char.ofNat b.toNat)) = [b] := by
      rw [Text.encode_eq, String.toList_singleton, List.flatMap_singleton,
        Text.utf8EncodeChar_of_ascii (by rw [hcode]; exact hascii), hcode, UInt8.ofNat_toNat]
    rw [List.singleton_append, decodeBytes_char hplus hpercent, hbyte]
    rfl
  split
  · next hspace =>
    rw [hspace]
    rfl
  · have hdigits : (Text.hex 2 b.toNat).map Char.toUpper =
        [(Text.hexDigit (b.toNat / 16 % 16)).toUpper, (Text.hexDigit (b.toNat % 16)).toUpper] := rfl
    have hb : b.toNat < 256 := b.toNat_lt
    have hvalue : 16 * (b.toNat / 16 % 16) + b.toNat % 16 = b.toNat := by omega
    rw [hdigits]
    simp only [List.cons_append, List.nil_append]
    have hdigit : ∀ n, Text.hexValue? (Text.hexDigit (n % 16)).toUpper = some (n % 16) :=
      fun n => hexValue?_toUpper (Nat.mod_lt n (by decide))
    rw [decodeBytes_escape (hdigit _) (hdigit _), hvalue, UInt8.ofNat_toNat]

/-! ## Names and values -/

theorem decodeBytes_flatMap (bytes : Bytes) : decodeBytes (bytes.flatMap encodeByte) = bytes := by
  induction bytes with
  | nil => rfl
  | cons b bytes ih => rw [List.flatMap_cons, decodeBytes_encodeByte, ih]

theorem decodeText_encodeText (s : String) : decodeText (encodeText s) = s := by
  rw [decodeText, encodeText, decodeBytes_flatMap, Text.decodeLossy_encode]

theorem inert_of_mem_encodeText {s : String} {c : Char} (h : c ∈ encodeText s) : Inert c := by
  obtain ⟨b, -, hc⟩ := List.mem_flatMap.1 h
  exact inert_of_mem_encodeByte b c hc

/-! ## Pairs -/

theorem decodePair_encodePair (p : String × String) : decodePair (encodePair p) = p := by
  have hcut : Text.splitAtFirst '=' (encodePair p) = some (encodeText p.1, encodeText p.2) :=
    Text.splitAtFirst_append fun h => (inert_of_mem_encodeText h).1 rfl
  rw [decodePair, hcut]
  simp only [decodeText_encodeText]

theorem ends_not_mem_encodePair (p : String × String) : '&' ∉ encodePair p ∧ '#' ∉ encodePair p := by
  have hinert : ∀ c ∈ encodePair p, c ≠ '&' ∧ c ≠ '#' := by
    intro c hc
    rcases List.mem_append.1 hc with hc | hc
    · exact (inert_of_mem_encodeText hc).2
    · rcases List.mem_cons.1 hc with rfl | hc
      · decide
      · exact (inert_of_mem_encodeText hc).2
  exact ⟨fun h => (hinert _ h).1 rfl, fun h => (hinert _ h).2 rfl⟩

theorem decode_nil : decode [] = [] := rfl

/-- What stands on both sides of a separator is read apart. -/
theorem decode_append (s t : List Char) : decode (s ++ '&' :: t) = decode s ++ decode t := by
  simp only [decode, List.splitOn_append_cons_self, List.filter_append, List.map_append]

theorem decode_encodePair (p : String × String) : decode (encodePair p) = [p] := by
  have hne : encodePair p ≠ [] := by simp [encodePair]
  rw [decode, List.splitOn_eq_singleton (ends_not_mem_encodePair p).1, List.filter_cons_of_pos (by simpa using hne)]
  simp [decodePair_encodePair]

theorem encode_cons_cons (p q : String × String) (pairs : List (String × String)) :
    encode (p :: q :: pairs) = encodePair p ++ '&' :: encode (q :: pairs) := rfl

/-- Pairs are read back as they are meant, in their order. -/
theorem decode_encode (pairs : List (String × String)) : decode (encode pairs) = pairs := by
  induction pairs with
  | nil => rfl
  | cons p pairs ih =>
    cases pairs with
    | nil => exact decode_encodePair p
    | cons q pairs =>
      rw [encode_cons_cons, decode_append, decode_encodePair, ih]
      rfl

theorem fragment_not_mem_encode (pairs : List (String × String)) : '#' ∉ encode pairs := by
  induction pairs with
  | nil => exact List.not_mem_nil
  | cons p pairs ih =>
    cases pairs with
    | nil => exact (ends_not_mem_encodePair p).2
    | cons q pairs =>
      rw [encode_cons_cons, List.mem_append, List.mem_cons]
      rintro (h | h | h)
      · exact (ends_not_mem_encodePair p).2 h
      · exact absurd h (by decide)
      · exact ih h

end Form

/-! ## Targets -/

/-- The query of a URL or of a target: what stands behind the first question mark, up to a fragment. -/
def queryOf (url : String) : List Char :=
  ((withoutFragment url.toList).dropWhile (· != '?')).drop 1

/-- The URL has no query. -/
def NoQuery (url : String) : Prop :=
  '?' ∉ withoutFragment url.toList

theorem fragment_not_mem_withoutFragment (url : List Char) : '#' ∉ withoutFragment url := by
  intro h
  have hne := List.mem_takeWhile_imp h
  simp at hne

theorem fragment_not_mem_queryOf (url : String) : '#' ∉ queryOf url := by
  intro h
  exact fragment_not_mem_withoutFragment url.toList ((List.dropWhile_sublist _).mem (List.mem_of_mem_drop h))

theorem queryOf_ofList {path query : List Char} (hmark : '?' ∉ path) (hpath : '#' ∉ path) (hquery : '#' ∉ query) :
    queryOf (String.ofList (path ++ '?' :: query)) = query := by
  have hwhole : withoutFragment (path ++ '?' :: query) = path ++ '?' :: query := by
    refine List.takeWhile_eq_self_iff.2 fun c hc => bne_iff_ne.2 ?_
    rintro rfl
    rcases List.mem_append.1 hc with hc | hc
    · exact hpath hc
    · exact (List.mem_cons.1 hc).elim (by decide) hquery
  have hskip : ∀ c ∈ path, (c != '?') = true := by
    intro c hc
    refine bne_iff_ne.2 ?_
    rintro rfl
    exact hmark hc
  rw [queryOf, String.toList_ofList, hwhole, List.dropWhile_append_of_pos hskip]
  rfl

theorem queryOf_of_noQuery {url : String} (h : NoQuery url) : queryOf url = [] := by
  have hall : (withoutFragment url.toList).dropWhile (· != '?') = [] := by
    refine List.dropWhile_eq_nil_iff.2 fun c hc => bne_iff_ne.2 ?_
    rintro rfl
    exact h hc
  rw [queryOf, hall]
  rfl

/-- The query of a target is that of its URL with the pairs behind it. -/
theorem queryOf_target (url : String) (pairs : List (String × String)) :
    queryOf (target url pairs) =
      queryOf url ++ (if (queryOf url).isEmpty then [] else ['&']) ++ Form.encode pairs := by
  have hpath : ∀ c ∈ (withoutFragment url.toList).takeWhile (· != '?'), c ≠ '?' ∧ c ≠ '#' := by
    intro c hc
    have hbefore := List.mem_takeWhile_imp hc
    refine ⟨by simpa using hbefore, ?_⟩
    rintro rfl
    exact fragment_not_mem_withoutFragment _ ((List.takeWhile_sublist _).mem hc)
  refine queryOf_ofList ?_ ?_ ?_
  · split
    · decide
    · exact fun h => (hpath _ h).1 rfl
  · split
    · decide
    · exact fun h => (hpath _ h).2 rfl
  · rw [List.mem_append, List.mem_append]
    rintro ((h | h) | h)
    · exact fragment_not_mem_queryOf url h
    · split at h
      · cases h
      · exact absurd h (by decide)
    · exact Form.fragment_not_mem_encode pairs h

/-- The query of a target is read as the pairs of its URL and those that were added. -/
theorem decode_queryOf_target (url : String) (pairs : List (String × String)) :
    Form.decode (queryOf (target url pairs)) = Form.decode (queryOf url) ++ pairs := by
  rw [queryOf_target]
  by_cases hnone : queryOf url = []
  · rw [hnone, Form.decode_nil]
    exact Form.decode_encode pairs
  · rw [if_neg (mt List.isEmpty_iff.1 hnone), List.append_assoc, List.singleton_append, Form.decode_append,
      Form.decode_encode]

theorem target_injective (url : String) : Function.Injective (target url) := by
  intro pairs pairs' h
  have hread := congrArg (fun t => Form.decode (queryOf t)) h
  simp only [decode_queryOf_target] at hread
  exact List.append_cancel_left hread

/-- A path behind a base brings no query. -/
theorem noQuery_append {base path : String} (h : NoQuery base) (hpath : '?' ∉ path.toList) :
    NoQuery (base ++ path) := by
  unfold NoQuery withoutFragment
  rw [String.toList_append, List.takeWhile_append]
  split
  · next hwhole =>
    rw [List.mem_append]
    rintro (hmem | hmem)
    · have hbase : withoutFragment base.toList = base.toList :=
        List.takeWhile_prefix _ |>.eq_of_length hwhole
      exact h (hbase.symm ▸ hmem)
    · exact hpath ((List.takeWhile_sublist _).mem hmem)
  · exact h

/-- Unless it is cancelled before, the program sends one request, for that target. -/
def Gets {α : Type} (p : Program web (Except Error α)) (t : String) : Prop :=
  ∃ url pairs, target url pairs = t ∧ ∃ outcome : Except Error Response → Except Error α,
    p = .look fun fired => if fired then .done (.error .cancelled)
      else .call (.get url pairs) fun reply => .done (outcome reply)

theorem gets_permitted {α : Type} (url : String) (pairs : List (String × String))
    (outcome : Except Error Response → Except Error α) :
    Gets (permitted.bind fun
      | .error e => .done (.error e)
      | .ok () => (send (.get url pairs)).bind fun reply => .done (outcome reply)) (target url pairs) :=
  ⟨url, pairs, rfl, outcome, permitted_bind_send _ _⟩

theorem Gets.unique {α : Type} {p : Program web (Except Error α)} {t t' : String} (h : Gets p t) (h' : Gets p t') :
    t = t' := by
  obtain ⟨url, pairs, rfl, outcome, rfl⟩ := h
  obtain ⟨url', pairs', rfl, outcome', heq⟩ := h'
  have hcall := congrFun (Program.look.inj heq) false
  simp only [Bool.false_eq_true, if_false, Program.call.injEq, Request.get.injEq] at hcall
  rw [hcall.1.1, hcall.1.2]

end Geocoding.Http

namespace Geocoding

open Http

/-! ## The geocoders -/

/-- The pairs of a lookup in the Census geocoder. -/
theorem Census.gets_lookup (client : Client) (address : String) :
    Gets (client.lookup address) (target (client.base ++ "/geographies/onelineaddress")
      [("address", address), ("benchmark", client.benchmark), ("vintage", client.vintage), ("layers", "Counties"),
        ("format", "json")]) :=
  gets_permitted _ _ _

/-- The pairs of a lookup in the Google geocoder. -/
theorem Google.gets_lookup {client : Client} (h : client.hasKey = true) (address : String) :
    Gets (client.lookup address) (target client.url [("address", address), ("key", client.key)]) := by
  unfold Client.lookup
  rw [h]
  exact gets_permitted _ _ _

/-- Without a key nothing is asked for. -/
theorem Google.hasKey_of_gets {client : Client} {address t : String} (h : Gets (client.lookup address) t) :
    client.hasKey = true := by
  obtain ⟨url, pairs, -, outcome, hlook⟩ := h
  cases hkey : client.hasKey with
  | true => rfl
  | false =>
    unfold Client.lookup at hlook
    rw [hkey] at hlook
    cases hlook

/-- The request of a lookup in the Census geocoder, whose base has no query, is read by the service as five pairs with
the texts that were given; that of a lookup in the Google geocoder as the pairs that its URL had, and two with the
texts that were given. So requests with one base and one target have the same texts. -/
theorem lookups_read_back :
    (∀ (client : Census.Client) (address : String), NoQuery client.base →
      ∃ t, Gets (client.lookup address) t ∧
        Form.decode (queryOf t) = [("address", address), ("benchmark", client.benchmark), ("vintage", client.vintage),
          ("layers", "Counties"), ("format", "json")]) ∧
    (∀ (client : Google.Client) (address : String), client.hasKey = true →
      ∃ t, Gets (client.lookup address) t ∧
        Form.decode (queryOf t) = Form.decode (queryOf client.url) ++ [("address", address), ("key", client.key)]) ∧
    (∀ (client client' : Census.Client) (address address' t : String), client.base = client'.base →
      Gets (client.lookup address) t → Gets (client'.lookup address') t →
      address = address' ∧ client.benchmark = client'.benchmark ∧ client.vintage = client'.vintage) ∧
    (∀ (client client' : Google.Client) (address address' t : String), client.url = client'.url →
      Gets (client.lookup address) t → Gets (client'.lookup address') t →
      address = address' ∧ client.key = client'.key) := by
  refine ⟨fun client address hbase => ?_, fun client address hkey => ?_,
    fun client client' address address' t hbase h h' => ?_, fun client client' address address' t hurl h h' => ?_⟩
  · refine ⟨_, Census.gets_lookup client address, ?_⟩
    rw [decode_queryOf_target, queryOf_of_noQuery (noQuery_append hbase (by decide)), Form.decode_nil]
    rfl
  · exact ⟨_, Google.gets_lookup hkey address, decode_queryOf_target _ _⟩
  · have hsame := (Census.gets_lookup client address).unique h
    rw [← (Census.gets_lookup client' address').unique h', hbase] at hsame
    simpa using target_injective _ hsame
  · have hsame := (Google.gets_lookup (Google.hasKey_of_gets h) address).unique h
    rw [← (Google.gets_lookup (Google.hasKey_of_gets h') address').unique h', hurl] at hsame
    simpa using target_injective _ hsame

/-- Texts with separators, signs of escapes and line breaks in them, and a URL that has a query. Of the Census geocoder
there are two clients with one base, given with and without slashes at its end. -/
theorem lookups_read_back_signs :
    let census : Census.Client := { base := "/geocoder", benchmark := "a&benchmark=b", vintage := "100%25#\n" }
    let slashed := Census.Client.ofBase "/geocoder//" "a&benchmark=b" "100%25#\n"
    let google : Google.Client := { url := "/json?region=us&", key := "k=1+é" }
    let address := "1 Main St & Elm\r\n?key=x"
    NoQuery census.base ∧ census.base = slashed.base ∧ google.hasKey = true ∧ ∃ t t',
      Gets (census.lookup address) t ∧ Gets (slashed.lookup address) t ∧ census.vintage = slashed.vintage ∧
      Form.decode (queryOf t) = [("address", address), ("benchmark", "a&benchmark=b"), ("vintage", "100%25#\n"),
        ("layers", "Counties"), ("format", "json")] ∧
      Gets (google.lookup address) t' ∧
      (∀ key, Gets (Google.Client.lookup ⟨google.url, key⟩ address) t' ↔ "k=1+é" = key) ∧
      Form.decode (queryOf t') = [("region", "us"), ("address", address), ("key", "k=1+é")] := by
  intro census slashed google address
  have hbase : NoQuery census.base := by
    unfold NoQuery
    decide
  have hslashes : census.base = slashed.base := by decide
  have hkey : google.hasKey = true := by decide
  obtain ⟨t, ht, hcensus⟩ := lookups_read_back.1 census address hbase
  obtain ⟨t', ht', hgoogle⟩ := lookups_read_back.2.1 google address hkey
  have hregion : Form.decode (queryOf google.url) = [("region", "us")] := by decide
  rw [hregion] at hgoogle
  have hslashed : Gets (slashed.lookup address) t := by
    have hclient : slashed = census := by
      rw [show slashed = ⟨slashed.base, "a&benchmark=b", "100%25#\n"⟩ from rfl, ← hslashes]
    rwa [hclient]
  have hvintage := (lookups_read_back.2.2.1 census slashed address address t hslashes ht hslashed).2.2
  refine ⟨hbase, hslashes, hkey, t, t', ht, hslashed, hvintage, hcensus, ht', fun key => ⟨fun h => ?_, ?_⟩, hgoogle⟩
  · exact (lookups_read_back.2.2.2 google ⟨google.url, key⟩ address address t' rfl ht' h).2
  · rintro rfl
    exact ht'

end Geocoding
