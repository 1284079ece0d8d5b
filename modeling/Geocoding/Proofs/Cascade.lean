import Geocoding.Engine.Cascade
import Geocoding.Cache.Entry

/-!
# What providers come to

Where the answer of every provider to every address is fixed, what it comes to to ask one after the other
is a function of the answers. It can be split at any position, and whatever it yields comes back from the
cache as it was kept.
-/

namespace Geocoding

namespace Resolution

/-- The resolution comes back from the cache as it was kept: entries of unmatched resolutions have no
coordinates. -/
def Keepable (r : Resolution) : Prop :=
  r.matched = false → r.latitude = Double.zero ∧ r.longitude = Double.zero

theorem keepable_of_matched {r : Resolution} (h : r.matched = true) : r.Keepable := by
  intro hunmatched
  rw [h] at hunmatched
  cases hunmatched

theorem keepable_unmatched (source : String) : (unmatched source).Keepable :=
  fun _ => ⟨rfl, rfl⟩

@[simp] theorem matched_unmatched (source : String) : (unmatched source).matched = false := rfl

@[simp] theorem source_unmatched (source : String) : (unmatched source).source = source := rfl

end Resolution

theorem Quality.parse_name (q : Quality) : parse q.name = .ok q := by
  have hword : Text.lowerAscii (Text.trim q.name) = q.name := by cases q <;> decide
  rw [parse, hword, ofName?_name]

/-- A resolution comes back from its entry. -/
theorem Cache.Entry.toResolution_ofResolution {r : Resolution} (h : r.Keepable) (key : String) (now : Time) :
    (ofResolution key r now).toResolution = r := by
  obtain ⟨latitude, longitude, source, quality, matched, rating, countyFips⟩ := r
  have hquality : ((quality.map Quality.name).bind fun s => (Quality.parse s).toOption) = quality := by
    cases quality with
    | none => rfl
    | some q => simp [Quality.parse_name, Except.toOption]
  have hcounty : (if countyFips = "" then none else some countyFips).getD "" = countyFips := by
    by_cases hempty : countyFips = "" <;> simp [hempty]
  cases matched with
  | true => simp [ofResolution, toResolution, hquality, hcounty]
  | false =>
    obtain ⟨hlatitude, hlongitude⟩ := h rfl
    simp only at hlatitude hlongitude
    simp [ofResolution, toResolution, hquality, hcounty, hlatitude, hlongitude]

namespace Engine

/-- What asking providers comes to, given what each of them answers. -/
def consult (answer : Nat → Address → Except Error Resolution) (a : Address) :
    List (Provider × Nat) → Option String → Resolution
  | [], last => .unmatched (last.getD "")
  | (p, position) :: rest, last =>
    if !p.available then consult answer a rest last
    else match answer position a with
      | .ok r => if r.matched then r else consult answer a rest (some p.name)
      | .error error => consult answer a rest (if error.isNotConfigured then last else some p.name)

section Consult

variable {answer : Nat → Address → Except Error Resolution} {a : Address}

/-- A provider has a match, or the outcome is an unmatched one. -/
theorem consult_cases (answer : Nat → Address → Except Error Resolution) (a : Address)
    (providers : List (Provider × Nat)) (last : Option String) :
    (consult answer a providers last).matched = true ∨
      ∃ source, consult answer a providers last = .unmatched source := by
  induction providers generalizing last with
  | nil => exact .inr ⟨_, rfl⟩
  | cons provider rest ih =>
    obtain ⟨p, position⟩ := provider
    unfold consult
    split
    · exact ih last
    · split
      next r hanswer =>
        split
        next hmatched => exact .inl hmatched
        next => exact ih _
      next error hanswer => exact ih _

theorem keepable_consult (providers : List (Provider × Nat)) (last : Option String) :
    (consult answer a providers last).Keepable := by
  obtain hmatched | ⟨source, hunmatched⟩ := consult_cases answer a providers last
  · exact Resolution.keepable_of_matched hmatched
  · rw [hunmatched]
    exact Resolution.keepable_unmatched source

/-- Addresses that have the same answers come to the same. -/
theorem consult_same {a' : Address} (h : ∀ position, answer position a = answer position a')
    (providers : List (Provider × Nat)) (last : Option String) :
    consult answer a providers last = consult answer a' providers last := by
  induction providers generalizing last with
  | nil => rfl
  | cons provider rest ih =>
    obtain ⟨p, position⟩ := provider
    simp only [consult, h position, ih]

/-- That no provider was asked before is the same as that one without a name was. -/
theorem consult_congr {last last' : Option String} (h : last.getD "" = last'.getD "")
    (providers : List (Provider × Nat)) :
    consult answer a providers last = consult answer a providers last' := by
  induction providers generalizing last last' with
  | nil => simp only [consult, h]
  | cons provider rest ih =>
    obtain ⟨p, position⟩ := provider
    unfold consult
    rw [ih h]
    cases answer position a with
    | ok r => rfl
    | error error =>
      simp only
      -- A provider that is not configured leaves open who was asked last; any other is named.
      have hsame : (if error.isNotConfigured then last else some p.name).getD "" =
          (if error.isNotConfigured then last' else some p.name).getD "" := by
        split
        · exact h
        · rfl
      rw [ih hsame]

/-- Providers are asked from any position on as if those before it had been asked by someone else, who
passes on which of them was asked last. -/
theorem consult_append (providers later : List (Provider × Nat)) (last : Option String) :
    consult answer a (providers ++ later) last =
      let r := consult answer a providers last
      if r.matched then r else consult answer a later (some r.source) := by
  induction providers generalizing last with
  | nil =>
    simp only [List.nil_append, consult, Resolution.matched_unmatched, Resolution.source_unmatched,
      Bool.false_eq_true, if_false]
    exact consult_congr (by simp) later
  | cons provider rest ih =>
    obtain ⟨p, position⟩ := provider
    rw [List.cons_append, consult, consult]
    split
    · exact ih last
    · cases answer position a with
      | error error => exact ih _
      | ok r =>
        simp only
        split
        · simp
        · exact ih _

/-- What is asked of a provider that is available, and of those behind it. -/
theorem consult_cons {p : Provider} {position : Nat} (hp : p.available = true)
    (later : List (Provider × Nat)) (last : Option String) :
    consult answer a ((p, position) :: later) last =
      match answer position a with
      | .ok r => if r.matched then r else consult answer a later (some p.name)
      | .error error => consult answer a later (if error.isNotConfigured then last else some p.name) := by
  rw [consult]
  simp [hp]

end Consult

/-! ## Spans -/

section Span

variable (e : Engine) {first middle stop : Nat}

/-- A range within the list. -/
theorem span_of_le (h : stop ≤ e.providers.length) : e.span first stop = (e.providers.zipIdx.take stop).drop first :=
  if_pos h

theorem span_sublist : (e.span first stop).Sublist e.providers.zipIdx := by
  unfold span
  split
  · exact (List.drop_sublist _ _).trans (List.take_sublist _ _)
  · exact List.nil_sublist _

/-- The providers from a position on. -/
theorem span_length : e.span first e.providers.length = e.providers.zipIdx.drop first := by
  rw [e.span_of_le (Nat.le_refl _), List.take_of_length_le (by simp)]

theorem mem_span {q : Provider × Nat} (h : q ∈ e.span first stop) :
    e.providers[q.2]? = some q.1 ∧ first ≤ q.2 ∧ q.2 < stop := by
  unfold span at h
  split at h
  next =>
    obtain ⟨i, hi⟩ := List.getElem?_of_mem h
    rw [List.getElem?_drop, List.getElem?_take] at hi
    split at hi
    next hlt =>
      rw [List.getElem?_zipIdx, Option.map_eq_some_iff] at hi
      obtain ⟨p, hp, rfl⟩ := hi
      exact ⟨by simpa using hp, by omega, by omega⟩
    next => cases hi
  next => cases h

/-- What is in a range of positions is what is in its parts. -/
theorem span_append_span (hfirst : first ≤ middle) (hmiddle : middle ≤ stop) (hstop : stop ≤ e.providers.length) :
    e.span first middle ++ e.span middle stop = e.span first stop := by
  rw [e.span_of_le hstop, e.span_of_le hstop, e.span_of_le (Nat.le_trans hmiddle hstop)]
  obtain ⟨m, rfl⟩ := Nat.exists_eq_add_of_le hfirst
  obtain ⟨n, rfl⟩ := Nat.exists_eq_add_of_le hmiddle
  have hlength : first + m + n - first = m + n := by omega
  simp only [List.drop_take, Nat.add_sub_cancel_left, hlength]
  rw [List.take_add, List.drop_drop]

theorem span_cons {position : Nat} {p : Provider} (h : e.providers[position]? = some p) :
    e.span position e.providers.length =
      (p, position) :: e.span (position + 1) e.providers.length := by
  obtain ⟨hlt, rfl⟩ := List.getElem?_eq_some_iff.1 h
  have hlength : position < e.providers.zipIdx.length := by simpa using hlt
  rw [span_length, span_length, List.drop_eq_getElem_cons hlength]
  simp

end Span

end Engine

end Geocoding
