import Geocoding.Proofs.Calls
import Geocoding.Proofs.Cascade
import Geocoding.Proofs.Interleaving.Stories

/-!
# Whom a run asks about a row

The story of a row tells which providers were asked about it, and in which order. While nobody has found the
row, all that matters for what comes next is the position up to which providers were asked, and which of them
was the last to answer. Every part of a run takes the story from one such front to the next, or to its end.
-/

namespace Geocoding.Engine

/-! ## What events tell -/

namespace Event

/-- The position of the provider that is asked about the row. -/
def asked? : Event → Option Nat
  | .started _ (.geocode position _) => some position
  | _ => none

/-- Something is called that may find the row: anything but the cache that is to keep it. -/
def asks : Event → Bool
  | .started _ (.store _ _) => false
  | .started _ _ => true
  | _ => false

/-- The cache knows the row. -/
def recalls : Event → Bool
  | .answered _ (.check _) (.ok (some _)) => true
  | _ => false

/-- The cache knows the row, or a provider has matched it. -/
def settles (row : Row) : Event → Bool
  | .answered _ (.geocode _ _) (.ok r) => r.matched
  | .answered _ (.submit _ _) (.ok answers) => (answers.get? row.index.repr).any (·.matched)
  | event => event.recalls

/-- A call breaks down. -/
def breaks : Event → Bool
  | .brokenDown _ _ => true
  | _ => false

/-- A lookup or a submission is reported as cancelled. -/
def cancels : Event → Bool
  | .answered _ (.check _) (.error .cancelled) | .answered _ (.submit _ _) (.error .cancelled) => true
  | _ => false

/-- A job begins, or something is kept. -/
def Aside (event : Event) : Prop :=
  ∀ c, event.call? = some c → ∃ key r, c = .store key r

end Event

/-- The provider that has answered that it does not know the row, by itself or to a submission, or that has
failed although it is configured. -/
def attempt? (e : Engine) (row : Row) : Event → Option String
  | .answered _ (.geocode position _) (.ok r) => if r.matched then none else e.names[position]?
  | .answered _ (.geocode position _) (.error error) => if error.isNotConfigured then none else e.names[position]?
  | .answered _ (.submit position _) (.ok answers) =>
    if (answers.get? row.index.repr).any (!·.matched) then e.names[position]? else none
  | _ => none

/-- The positions of the providers that were asked. -/
def asked (t : List Event) : List Nat :=
  t.filterMap Event.asked?

/-- The last attempt at a row, if there was one. -/
def lastAttempt (e : Engine) (row : Row) (t : List Event) : String :=
  (t.filterMap (e.attempt? row)).getLast?.getD ""

@[simp] theorem asked_append (t t' : List Event) : asked (t ++ t') = asked t ++ asked t' :=
  List.filterMap_append

theorem mem_asked {t : List Event} {position : Nat} :
    position ∈ asked t ↔ ∃ who a, .started who (.geocode position a) ∈ t := by
  simp only [asked, List.mem_filterMap]
  constructor
  · rintro ⟨event, hevent, h⟩
    unfold Event.asked? at h
    split at h
    · cases h
      exact ⟨_, _, hevent⟩
    · cases h
  · rintro ⟨who, a, hevent⟩
    exact ⟨_, hevent, rfl⟩

@[simp] theorem lastAttempt_concat (e : Engine) (row : Row) (t : List Event) (event : Event) :
    e.lastAttempt row (t ++ [event]) = (e.attempt? row event).getD (e.lastAttempt row t) := by
  unfold lastAttempt
  cases h : e.attempt? row event <;> simp [h]

theorem Event.asked?_eq_none {event : Event} (h : event.asks = false) : event.asked? = none := by
  unfold Event.asked?
  split
  · cases h
  · rfl

/-- The event tells nothing of who was asked about the row, or whether it was found. -/
structure Idle (e : Engine) (row : Row) (event : Event) : Prop where
  asked : event.asked? = none
  unsettled : event.settles row = false
  attempt : e.attempt? row event = none

theorem Event.Aside.not_asks {event : Event} (h : event.Aside) : event.asks = false := by
  cases event with
  | started who c =>
    obtain ⟨key, r, rfl⟩ := h c rfl
    rfl
  | _ => rfl

theorem Event.Aside.idle {e : Engine} {row : Row} {event : Event} (h : event.Aside) : e.Idle row event := by
  cases event with
  | answered who c reply =>
    obtain ⟨key, r, rfl⟩ := h c rfl
    exact ⟨rfl, rfl, rfl⟩
  | started who c =>
    obtain ⟨key, r, rfl⟩ := h c rfl
    exact ⟨rfl, rfl, rfl⟩
  | _ => exact ⟨rfl, rfl, rfl⟩

/-! ## The order in which providers are asked -/

section Order

variable {e : Engine} {row : Row} {t u : List Event} {first stop : Nat} {prior : Option String} {slot : Resolution}

/-- Available providers were asked about the row in order, each at most once, and nobody was asked about it once
it was settled. -/
structure Orderly (e : Engine) (row : Row) (t : List Event) : Prop where
  increasing : (asked t).Pairwise (· < ·)
  available : ∀ who position a, .started who (.geocode position a) ∈ t →
    a = row.address ∧ ∃ p, e.providers[position]? = some p ∧ p.available = true
  settled : t.Pairwise fun earlier later => earlier.settles row = true → later.asks = false

/-- A provider has been asked about the row, or has answered to a submission that it does not know it. -/
def Tried (row : Row) (t : List Event) (position : Nat) : Prop :=
  position ∈ asked t ∨ ∃ who rows answers, .answered who (.submit position rows) (.ok answers) ∈ t ∧
    (answers.get? row.index.repr).any (!·.matched) = true

/-- Moreover, the row has come to what is right for it: unless the cache told so or a call broke down, it was not
found only if all available providers were tried, and then that names the last attempt. -/
structure InOrder (e : Engine) (row : Row) (t : List Event) (slot : Resolution) : Prop extends e.Orderly row t where
  source : slot.matched = false → (∀ event ∈ t, event.recalls = false) → (∀ event ∈ t, event.breaks = false) →
    slot.source = e.lastAttempt row t
  exhausted : slot.matched = false → (∀ event ∈ t, event.recalls = false) → (∀ event ∈ t, event.breaks = false) →
    ∀ position p, e.providers[position]? = some p → p.available = true → Tried row t position

/-- Providers before a position were asked about the row, and it was not settled. The last attempt is known, and
no available provider was left out, unless a call broke down. -/
structure Front (e : Engine) (row : Row) (t : List Event) (stop : Nat) (prior : Option String) : Prop
    extends e.Orderly row t where
  below : ∀ position ∈ asked t, position < stop
  unsettled : ∀ event ∈ t, event.settles row = false
  source : (∀ event ∈ t, event.breaks = false) → prior.getD "" = e.lastAttempt row t
  reached : (∀ event ∈ t, event.breaks = false) → ∀ position p, position < stop →
    e.providers[position]? = some p → p.available = true → Tried row t position

theorem Tried.mono {position : Nat} (h : Tried row t position) (hsub : t ⊆ u) : Tried row u position := by
  rcases h with h | ⟨who, rows, answers, hevent, hany⟩
  · obtain ⟨who, a, hevent⟩ := mem_asked.1 h
    exact .inl (mem_asked.2 ⟨who, a, hsub hevent⟩)
  · exact .inr ⟨who, rows, answers, hsub hevent, hany⟩

theorem Orderly.append (h : e.Orderly row t) (hu : ∀ event ∈ u, event.asks = false) : e.Orderly row (t ++ u) := by
  have hasked : asked u = [] := List.filterMap_eq_nil_iff.2 fun event hevent => Event.asked?_eq_none (hu event hevent)
  constructor
  case increasing => simpa [hasked] using h.increasing
  case available =>
    intro who position a hevent
    rcases List.mem_append.1 hevent with hevent | hevent
    · exact h.available who position a hevent
    · cases hu _ hevent
  case settled =>
    refine List.pairwise_append.2 ⟨h.settled, ?_, fun _ _ later hlater _ => hu later hlater⟩
    exact List.pairwise_of_forall_mem_list fun _ _ later hlater _ => hu later hlater

theorem Front.start (e : Engine) (row : Row) : e.Front row [] 0 none where
  increasing := .nil
  available := by simp
  settled := .nil
  below := by simp [asked]
  unsettled := by simp
  source _ := rfl
  reached _ _ _ hlt := absurd hlt (Nat.not_lt_zero _)

/-- An event that does not settle the row takes the front on, or leaves it where it is. -/
theorem Front.concat (h : e.Front row t first prior) (hle : first ≤ stop) (event : Event) (prior' : Option String)
    (hasked : ∀ position, event.asked? = some position → first ≤ position ∧ position < stop)
    (havailable : ∀ who position a, event = .started who (.geocode position a) →
      a = row.address ∧ ∃ p, e.providers[position]? = some p ∧ p.available = true)
    (hunsettled : event.settles row = false)
    (hprior : event.breaks = false → prior'.getD "" = (e.attempt? row event).getD (prior.getD ""))
    (htried : ∀ position, first ≤ position → position < stop → Tried row [event] position) :
    e.Front row (t ++ [event]) stop prior' where
  increasing := by
    cases hposition : event.asked? with
    | none => simpa [asked, hposition] using h.increasing
    | some position =>
      have hbelow : ∀ earlier ∈ asked t, earlier < position := fun earlier hearlier =>
        Nat.lt_of_lt_of_le (h.below earlier hearlier) (hasked position hposition).1
      simpa [asked, hposition, List.pairwise_append] using ⟨h.increasing, by simpa [asked] using hbelow⟩
  available who position a hevent := by
    rcases List.mem_append.1 hevent with hevent | hevent
    · exact h.available who position a hevent
    · exact havailable who position a (List.mem_singleton.1 hevent).symm
  settled := by
    refine List.pairwise_append.2 ⟨h.settled, List.pairwise_singleton _ _, ?_⟩
    intro earlier hearlier _ _ hsettles
    rw [h.unsettled earlier hearlier] at hsettles
    cases hsettles
  below := by
    intro position hposition
    rw [asked_append, List.mem_append] at hposition
    rcases hposition with hposition | hposition
    · exact Nat.lt_of_lt_of_le (h.below position hposition) hle
    · exact (hasked position (by simpa [asked] using hposition)).2
  unsettled := by simpa [or_imp, forall_and] using ⟨h.unsettled, hunsettled⟩
  source hbreaks := by
    simp only [List.mem_append, List.mem_singleton, or_imp, forall_and, forall_eq] at hbreaks
    rw [lastAttempt_concat, ← h.source hbreaks.1]
    exact hprior hbreaks.2
  reached hbreaks position p hlt hp havailable := by
    by_cases hfirst : position < first
    · have hreached := h.reached (fun event hevent => hbreaks event (by simp [hevent])) position p hfirst hp havailable
      exact hreached.mono (List.subset_append_left ..)
    · exact (htried position (Nat.le_of_not_lt hfirst) hlt).mono (List.subset_append_right ..)

/-- An event by which nobody is asked tells of the last attempt at most. -/
theorem Front.told (h : e.Front row t stop prior) (event : Event) (prior' : Option String)
    (hasked : event.asked? = none) (hunsettled : event.settles row = false)
    (hprior : event.breaks = false → prior'.getD "" = (e.attempt? row event).getD (prior.getD "")) :
    e.Front row (t ++ [event]) stop prior' := by
  refine h.concat (Nat.le_refl _) event prior' (by simp [hasked]) ?_ hunsettled hprior fun _ _ _ => by omega
  rintro who position a rfl
  cases hasked

theorem Front.append (h : e.Front row t stop prior) (hu : ∀ event ∈ u, e.Idle row event) :
    e.Front row (t ++ u) stop prior := by
  induction u generalizing t with
  | nil => simpa using h
  | cons event u ih =>
    have hidle := hu event List.mem_cons_self
    have hfront := h.told event prior hidle.asked hidle.unsettled (by simp [hidle.attempt])
    simpa using ih hfront fun event hevent => hu event (List.mem_cons_of_mem _ hevent)

theorem Front.begin (h : e.Front row t stop prior) (j : Job) : e.Front row (t ++ [.begun j]) stop prior :=
  h.append (List.forall_mem_singleton.2 ⟨rfl, rfl, rfl⟩)

/-- A lookup that breaks down tells nothing of the row. -/
theorem Front.miss (h : e.Front row t stop prior) (who : Option Job) (key : String) :
    e.Front row (t ++ [.started who (.check key), .brokenDown who (.check key)]) stop prior :=
  h.append (List.forall_mem_cons.2 ⟨⟨rfl, rfl, rfl⟩, List.forall_mem_singleton.2 ⟨rfl, rfl, rfl⟩⟩)

/-- The front passes over providers that are not available. -/
theorem Front.skip (h : e.Front row t first prior) (hle : first ≤ stop)
    (hskip : ∀ position p, first ≤ position → position < stop → e.providers[position]? = some p →
      p.available = false) : e.Front row t stop prior where
  toOrderly := h.toOrderly
  below position hposition := Nat.lt_of_lt_of_le (h.below position hposition) hle
  unsettled := h.unsettled
  source := h.source
  reached hbreaks position p hlt hp havailable := by
    by_cases hfirst : position < first
    · exact h.reached hbreaks position p hfirst hp havailable
    · rw [hskip position p (Nat.le_of_not_lt hfirst) hlt hp] at havailable
      cases havailable

/-- Behind a breakdown, nothing is promised of the last attempt and of those before it. -/
theorem Front.broken (h : e.Front row t first prior) (hle : first ≤ stop)
    (hbreaks : ∃ event ∈ t, event.breaks = true) (prior' : Option String) : e.Front row t stop prior' :=
  have hfalse : ¬∀ event ∈ t, event.breaks = false := by simpa using hbreaks
  { toOrderly := h.toOrderly
    below := fun position hposition => Nat.lt_of_lt_of_le (h.below position hposition) hle
    unsettled := h.unsettled
    source := fun hnone => absurd hnone hfalse
    reached := fun hnone => absurd hnone hfalse }

theorem Front.congr (h : e.Front row t stop prior) {prior' : Option String}
    (hprior : (∀ event ∈ t, event.breaks = false) → prior'.getD "" = prior.getD "") : e.Front row t stop prior' :=
  { h with source := fun hbreaks => (hprior hbreaks).trans (h.source hbreaks) }

/-- A row is in order when the front has come to the end of the providers. -/
theorem Front.inOrder (h : e.Front row t stop prior) (hstop : e.providers.length ≤ stop)
    (hslot : slot.source = prior.getD "") : e.InOrder row t slot where
  toOrderly := h.toOrderly
  source _ _ hbreaks := hslot.trans (h.source hbreaks)
  exhausted _ _ hbreaks position p hp :=
    h.reached hbreaks position p (Nat.lt_of_lt_of_le (List.getElem?_eq_some_iff.1 hp).1 hstop) hp

/-- A row of which something has broken down is in order, whatever it comes to. -/
theorem Orderly.inOrder_of_breaks (h : e.Orderly row t) (hbreaks : ∃ event ∈ t, event.breaks = true)
    (slot : Resolution) : e.InOrder row t slot :=
  have hfalse : ¬∀ event ∈ t, event.breaks = false := by simpa using hbreaks
  ⟨h, fun _ _ hnone => absurd hnone hfalse, fun _ _ hnone => absurd hnone hfalse⟩

theorem Orderly.inOrder_of_matched (h : e.Orderly row t) (hmatched : slot.matched = true) :
    e.InOrder row t slot :=
  have hfalse : slot.matched ≠ false := by simp [hmatched]
  ⟨h, fun hunmatched => absurd hunmatched hfalse, fun hunmatched => absurd hunmatched hfalse⟩

end Order

/-! ## Tasks -/

section Task

variable {α β : Type} {e : Engine} {row : Row} {t u : List Event} {first stop : Nat} {prior : Option String}
  {who : Option Job}

/-- A task that comes to no outcome shows that it has broken down. -/
theorem Shows.breaks {p : Task α} (h : Shows who p u none) : ∃ event ∈ u, event.breaks = true := by
  induction p generalizing u with
  | done a => cases h.2
  | look next ih => exact ih false h
  | call c next ih =>
    obtain ⟨t, rfl, ⟨reply, t, rfl, h⟩ | ⟨rfl, -⟩⟩ := h
    · obtain ⟨event, hevent, hbreaks⟩ := ih reply h
      exact ⟨event, by simp [hevent], hbreaks⟩
    · exact ⟨.brokenDown who c, by simp, rfl⟩

/-- A task shows no other calls than it makes. -/
theorem Shows.only {p : Task α} {P : Call → Prop} {o : Option α} (h : Shows who p u o) (hp : p.Only P) :
    ∀ event ∈ u, ∃ c, event.call? = some c ∧ P c := by
  induction p generalizing u with
  | done a => simp [h.1]
  | look next ih => exact ih false h (hp false)
  | call c next ih =>
    obtain ⟨t, rfl, ⟨reply, t, rfl, h⟩ | ⟨rfl, -⟩⟩ := h
    · simpa [Event.call?, hp.1] using ih reply h (hp.2 reply)
    · simp [Event.call?, hp.1]

theorem Shows.of_map {p : Task α} {g : α → β} {o : Option β}
    (h : Shows who (p.bind fun a => .done (g a)) u o) : ∃ o', Shows who p u o' ∧ o = o'.map g := by
  obtain ⟨t₁, a, t₂, rfl, hp, rfl, rfl⟩ | ⟨hp, rfl⟩ := h.bind
  · exact ⟨some a, by simpa using hp, rfl⟩
  · exact ⟨none, hp, rfl⟩

theorem shows_keep {key : String} {r : Resolution} {o : Option Unit} (h : Shows who (e.keep key r) u o) :
    ∀ event ∈ u, event.Aside := by
  intro event hevent c hc
  obtain ⟨c', hc', rfl⟩ := h.only (e.only_keep key r) event hevent
  rw [hc, Option.some.injEq] at hc'
  exact ⟨key, r, hc'⟩

/-- A lookup misses, and nothing is told of the row; or it has a hit, which is the last that it shows; or it is
called off; or it breaks down. -/
theorem shows_lookup (row : Row) {key : String} {o : Option (Except Error (Option Resolution))}
    (h : Shows who (e.lookup key) u o) (hcancels : ∀ event ∈ u, event.cancels = false) :
    (o = some (.ok none) ∧ ∀ event ∈ u, e.Idle row event) ∨
      (∃ hit, o = some (.ok (some hit)) ∧
        u = [.started who (.check key), .answered who (.check key) (.ok (some hit))]) ∨
      o = none ∧ u = [.started who (.check key), .brokenDown who (.check key)] := by
  have hidle : ∀ reply, Event.settles row (.answered who (.check key) reply) = false →
      ∀ event ∈ [Event.started who (.check key), .answered who (.check key) reply], e.Idle row event := by
    intro reply hunsettled
    exact List.forall_mem_cons.2 ⟨⟨rfl, rfl, rfl⟩, List.forall_mem_singleton.2 ⟨rfl, hunsettled, rfl⟩⟩
  unfold lookup at h
  split at h
  · obtain ⟨t₁, reply, t₂, rfl, hcall, hrest⟩ | ⟨hcall, rfl⟩ := h.bind
    · obtain ⟨reply, rfl, ⟨⟩⟩ | ⟨-, ⟨⟩⟩ := hcall.guarded
      cases reply with
      | ok found =>
        obtain ⟨rfl, rfl⟩ := hrest
        cases found with
        | none => exact .inl ⟨rfl, hidle _ rfl⟩
        | some hit => exact .inr (.inl ⟨hit, rfl, rfl⟩)
      | error error =>
        have hclear : error.isCancelled = false := by
          have hanswered := hcancels (.answered who (.check key) (.error error)) (by simp)
          cases error <;> first | rfl | cases hanswered
        simp only [hclear] at hrest
        obtain ⟨rfl, rfl⟩ := hrest
        exact .inl ⟨rfl, hidle _ rfl⟩
    · obtain ⟨reply, -, ⟨⟩⟩ | ⟨rfl, -⟩ := hcall.guarded
      exact .inr (.inr ⟨rfl, rfl⟩)
  · obtain ⟨rfl, rfl⟩ := h
    exact .inl ⟨rfl, by simp⟩

/-- The providers with their positions, from one up to another, in order. -/
structure Ranked (e : Engine) (first stop : Nat) (providers : List (Provider × Nat)) : Prop where
  known : ∀ q ∈ providers, e.providers[q.2]? = some q.1 ∧ first ≤ q.2 ∧ q.2 < stop
  complete : ∀ position p, first ≤ position → position < stop → e.providers[position]? = some p →
    (p, position) ∈ providers
  increasing : providers.Pairwise fun q q' => q.2 < q'.2

theorem ranked_span (e : Engine) (h : stop ≤ e.providers.length) : e.Ranked first stop (e.span first stop) where
  known _ hq := e.mem_span hq
  complete position p hfirst hlt hp := by
    apply List.mem_of_getElem? (i := position - first)
    simp [e.span_of_le h, hfirst, hlt, hp]
  increasing := by
    have hzip : e.providers.zipIdx.Pairwise fun q q' => q.2 < q'.2 := by
      rw [← List.pairwise_map (f := Prod.snd) (R := (· < ·)), List.zipIdx_map_snd]
      exact List.pairwise_lt_range'
    exact hzip.sublist e.span_sublist

theorem Ranked.tail {q : Provider × Nat} {providers : List (Provider × Nat)}
    (h : e.Ranked first stop (q :: providers)) : e.Ranked (q.2 + 1) stop providers where
  known q' hq' :=
    have hknown := h.known q' (List.mem_cons_of_mem _ hq')
    ⟨hknown.1, (List.pairwise_cons.1 h.increasing).1 q' hq', hknown.2.2⟩
  complete position p hlt hstop hp := by
    have hfirst := (h.known q List.mem_cons_self).2.1
    rcases List.mem_cons.1 (h.complete position p (by omega) hstop hp) with rfl | hin
    · exact absurd hlt (Nat.lt_irrefl _)
    · exact hin
  increasing := (List.pairwise_cons.1 h.increasing).2

/-- There is nobody before the first of the providers. -/
theorem Ranked.skip {q : Provider × Nat} {providers : List (Provider × Nat)}
    (h : e.Ranked first stop (q :: providers)) {position : Nat} {p : Provider} (hfirst : first ≤ position)
    (hlt : position < q.2) : e.providers[position]? ≠ some p := by
  intro hp
  have hstop := (h.known q List.mem_cons_self).2.2
  rcases List.mem_cons.1 (h.complete position p hfirst (by omega) hp) with rfl | hin
  · exact Nat.lt_irrefl _ hlt
  · exact absurd ((List.pairwise_cons.1 h.increasing).1 _ hin) (by simp; omega)

/-- What comes of asking providers about a row: it is not found, or matched, or a call breaks down. -/
inductive Consulted (e : Engine) (row : Row) (t : List Event) (stop : Nat) :
    Option (Except Error Resolution) → Prop where
  | unmatched {source : String} (front : e.Front row t stop (some source)) :
      Consulted e row t stop (some (.ok (.unmatched source)))
  | matched {r : Resolution} (matched : r.matched = true) (orderly : e.Orderly row t) :
      Consulted e row t stop (some (.ok r))
  | broken (breaks : ∃ event ∈ t, event.breaks = true) (front : e.Front row t stop none) :
      Consulted e row t stop none

theorem Front.ask {p : Provider} {position : Nat} (h : e.Front row t position prior) (who : Option Job)
    (hp : e.providers[position]? = some p) (havailable : p.available = true) :
    e.Front row (t ++ [.started who (.geocode position row.address)]) (position + 1) prior := by
  refine h.concat (Nat.le_succ _) _ prior ?_ ?_ rfl (fun _ => rfl) ?_
  · rintro _ ⟨⟩
    omega
  · rintro _ _ _ ⟨⟩
    exact ⟨rfl, p, hp, havailable⟩
  · intro position' hle hlt
    obtain rfl : position' = position := by omega
    exact .inl (by simp [asked, Event.asked?])

theorem names_getElem? {p : Provider} {position : Nat} (hp : e.providers[position]? = some p) :
    e.names[position]? = some p.name := by
  simp [names, hp]

/-- Providers are asked in order, until one of them has a match. -/
theorem Front.askAll {providers : List (Provider × Nat)} {last : Option String}
    {o : Option (Except Error Resolution)} (hproviders : e.Ranked first stop providers) (hle : first ≤ stop)
    (h : e.Front row t first last) (hs : Shows who (Engine.askAll row.address providers last) u o) :
    e.Consulted row (t ++ u) stop o := by
  induction providers generalizing t u first last with
  | nil =>
    obtain ⟨rfl, rfl⟩ := hs
    rw [List.append_nil]
    have hfront := h.skip hle fun position p hfirst hlt hp =>
      absurd (hproviders.complete position p hfirst hlt hp) (by simp)
    exact .unmatched (hfront.congr fun _ => rfl)
  | cons provider rest ih =>
    obtain ⟨p, position⟩ := provider
    obtain ⟨hp, hfirst, hstop⟩ := hproviders.known (p, position) List.mem_cons_self
    have hfront : e.Front row t position last := h.skip hfirst fun _ _ hle hlt hp' =>
      absurd hp' (hproviders.skip hle hlt)
    change Shows who (if !p.available then _ else _) _ _ at hs
    split at hs
    next hunavailable =>
      refine ih hproviders.tail hstop (hfront.skip (Nat.le_succ _) fun position' p' hle hlt hp' => ?_) hs
      obtain rfl : position' = position := by omega
      obtain rfl : p' = p := Option.some.inj (hp'.symm.trans hp)
      simpa using hunavailable
    next havailable =>
      have hasked := hfront.ask who hp (by simpa using havailable)
      obtain ⟨t₁, reply, t₂, rfl, hcall, hrest⟩ | ⟨hcall, rfl⟩ := hs.bind
      · obtain ⟨reply, rfl, ⟨⟩⟩ | ⟨-, ⟨⟩⟩ := hcall.guarded
        cases reply with
        | error error =>
          have hnext := hasked.told (.answered who (.geocode position row.address) (.error error))
            (if error.isNotConfigured then last else some p.name) rfl rfl (by
              intro _
              simp only [attempt?, names_getElem? hp]
              split <;> rfl)
          simpa using ih hproviders.tail hstop hnext hrest
        | ok r =>
          simp only at hrest
          split at hrest
          next hmatched =>
            obtain ⟨rfl, rfl⟩ := hrest
            refine .matched hmatched ?_
            simpa using hasked.toOrderly.append (u := [.answered who (.geocode position row.address) (.ok r)])
              (by simp [Event.asks])
          next hunmatched =>
            have hnext := hasked.told (.answered who (.geocode position row.address) (.ok r))
              (some p.name) rfl (by simpa [Event.settles] using hunmatched)
              (by simp [attempt?, hunmatched, names_getElem? hp])
            simpa using ih hproviders.tail hstop hnext hrest
      · obtain ⟨reply, -, ⟨⟩⟩ | ⟨rfl, -⟩ := hcall.guarded
        have hnext := hasked.told (.brokenDown who (.geocode position row.address)) none rfl rfl (by rintro ⟨⟩)
        have hbreaks : ∃ event ∈ t ++ [.started who (.geocode position row.address),
            .brokenDown who (.geocode position row.address)], event.breaks = true :=
          ⟨.brokenDown who (.geocode position row.address), by simp, rfl⟩
        rw [List.append_assoc] at hnext
        exact .broken hbreaks (hnext.broken hstop hbreaks none)

/-- The first of some providers is asked, if it is available. -/
theorem mem_asked_askAll {p : Provider} (havailable : p.available = true) {a : Address} {position : Nat}
    {rest : List (Provider × Nat)} {last : Option String} {o : Option (Except Error Resolution)}
    (h : Shows who (Engine.askAll a ((p, position) :: rest) last) u o) : position ∈ asked u := by
  change Shows who (if !p.available then _ else _) _ _ at h
  rw [if_neg (by simp [havailable])] at h
  obtain ⟨t₁, reply, t₂, rfl, hcall, -⟩ | ⟨hcall, rfl⟩ := h.bind
  · obtain ⟨reply, rfl, -⟩ | ⟨rfl, -⟩ := hcall.guarded <;> simp [asked, Event.asked?]
  · obtain ⟨reply, rfl, -⟩ | ⟨rfl, -⟩ := hcall.guarded <;> simp [asked, Event.asked?]

theorem Consulted.orderly {o : Option (Except Error Resolution)} (h : e.Consulted row t stop o) :
    e.Orderly row t := by
  cases h with
  | unmatched front => exact front.toOrderly
  | matched _ orderly => exact orderly
  | broken _ front => exact front.toOrderly

/-- What comes of asking providers is in order, also when it has been kept. -/
theorem Consulted.kept {r : Resolution} (h : e.Consulted row t stop (some (.ok r)))
    (hstop : r.matched = true ∨ e.providers.length ≤ stop) (hu : ∀ event ∈ u, event.Aside) :
    e.InOrder row (t ++ u) r := by
  cases h with
  | unmatched front =>
    have hend : e.providers.length ≤ stop := hstop.resolve_left (by rintro ⟨⟩)
    exact (front.append fun event hevent => (hu event hevent).idle).inOrder hend rfl
  | matched matched orderly =>
    exact (orderly.append fun event hevent => (hu event hevent).not_asks).inOrder_of_matched matched

/-- A row that the cache knows is in order, whatever the cache tells. -/
theorem Front.recalled (h : e.Front row t first prior) (who : Option Job) (key : String) (hit : Resolution) :
    e.InOrder row (t ++ [.started who (.check key), .answered who (.check key) (.ok (some hit))]) hit := by
  have hstarted : e.Front row (t ++ [.started who (.check key)]) first prior :=
    h.append (List.forall_mem_singleton.2 ⟨rfl, rfl, rfl⟩)
  have horderly := hstarted.toOrderly.append (u := [.answered who (.check key) (.ok (some hit))])
    (by simp [Event.asks])
  have hfalse : ¬∀ event ∈ t ++ [.started who (.check key), .answered who (.check key) (.ok (some hit))],
      event.recalls = false := by
    intro hnone
    cases hnone (.answered who (.check key) (.ok (some hit))) (by simp)
  exact ⟨by simpa using horderly, fun _ hnone => absurd hnone hfalse, fun _ hnone => absurd hnone hfalse⟩

/-- A row that is resolved comes to what is right for it. -/
theorem Front.resolve {o : Option (Except Error Resolution)} (h : e.Front row t first prior)
    (hle : first ≤ e.providers.length) (hs : Shows who (e.resolve row.address first prior) u o)
    (hcancels : ∀ event ∈ u, event.cancels = false) :
    ∃ slot : Option Resolution, o = slot.map .ok ∧ e.InOrder row (t ++ u) (slot.getD {}) := by
  obtain ⟨t₁, found, t₂, rfl, hlookup, hrest⟩ | ⟨hlookup, rfl⟩ := Shows.bind (p := e.lookup row.address.key) hs
  · obtain ⟨⟨⟩, hidle⟩ | ⟨hit, ⟨⟩, rfl⟩ | ⟨⟨⟩, -⟩ := shows_lookup row hlookup fun event hevent =>
      hcancels event (List.mem_append_left _ hevent)
    case inl =>
      rw [← List.append_assoc]
      obtain ⟨t₃, outcome, t₄, rfl, hask, hrest⟩ | ⟨hask, rfl⟩ :=
        Shows.bind (p := e.cascade row.address first _ prior) hrest
      · have hconsulted := (h.append hidle).askAll (e.ranked_span (Nat.le_refl _)) hle hask
        obtain ⟨r, rfl⟩ : ∃ r, outcome = .ok r := by cases hconsulted <;> exact ⟨_, rfl⟩
        obtain ⟨kept, hkeep, rfl⟩ := Shows.of_map (p := e.keep row.address.key r) hrest
        rw [← List.append_assoc]
        have hin := hconsulted.kept (.inr (Nat.le_refl _)) (shows_keep hkeep)
        cases kept with
        | some _ => exact ⟨some r, rfl, hin⟩
        | none =>
          obtain ⟨event, hevent, hbreaks⟩ := hkeep.breaks
          exact ⟨none, rfl, hin.toOrderly.inOrder_of_breaks ⟨event, by simp [hevent], hbreaks⟩ {}⟩
      · have hconsulted := (h.append hidle).askAll (e.ranked_span (Nat.le_refl _)) hle hask
        obtain ⟨event, hevent, hbreaks⟩ := hask.breaks
        exact ⟨none, rfl, hconsulted.orderly.inOrder_of_breaks ⟨event, by simp [hevent], hbreaks⟩ {}⟩
    case inr.inl =>
      obtain ⟨rfl, rfl⟩ := hrest
      exact ⟨some hit, rfl, by simpa using h.recalled who row.address.key hit⟩
  · obtain ⟨⟨⟩, -⟩ | ⟨hit, ⟨⟩, -⟩ | ⟨-, rfl⟩ := shows_lookup row hlookup hcancels
    exact ⟨none, rfl, (h.miss who row.address.key).toOrderly.inOrder_of_breaks
      ⟨.brokenDown who (.check row.address.key), by simp, rfl⟩ {}⟩

/-- A row is resolved from an available provider on: that one is asked, unless the cache knows the row or its
lookup breaks down. -/
theorem asked_of_resolve {a : Address} {p : Provider} (hp : e.providers[first]? = some p)
    (havailable : p.available = true) {o : Option (Except Error Resolution)}
    (h : Shows who (e.resolve a first prior) u o) (hcancels : ∀ event ∈ u, event.cancels = false) :
    first ∈ asked u ∨ (∃ key hit, .answered who (.check key) (.ok (some hit)) ∈ u) ∨
      ∃ key, .brokenDown who (.check key) ∈ u := by
  obtain ⟨t₁, found, t₂, rfl, hlookup, hrest⟩ | ⟨hlookup, rfl⟩ := Shows.bind (p := e.lookup a.key) h
  · obtain ⟨⟨⟩, -⟩ | ⟨hit, ⟨⟩, rfl⟩ | ⟨⟨⟩, -⟩ := shows_lookup ⟨0, a⟩ hlookup fun event hevent =>
      hcancels event (List.mem_append_left _ hevent)
    · left
      -- The provider is the first of those in question, and available, so it is asked whatever comes of it.
      have hspan : e.cascade a first e.providers.length prior =
          Engine.askAll a ((p, first) :: e.span (first + 1) e.providers.length) prior := by
        rw [cascade, span_cons e hp]
      obtain ⟨t₃, outcome, t₄, rfl, hask, -⟩ | ⟨hask, -⟩ := Shows.bind (p := e.cascade a first _ prior) hrest
      · have hasked := mem_asked_askAll havailable (hspan ▸ hask)
        simp [hasked]
      · have hasked := mem_asked_askAll havailable (hspan ▸ hask)
        simp [hasked]
    · exact .inr (.inl ⟨a.key, hit, by simp⟩)
  · obtain ⟨⟨⟩, -⟩ | ⟨hit, ⟨⟩, -⟩ | ⟨-, rfl⟩ := shows_lookup ⟨0, a⟩ hlookup hcancels
    exact .inr (.inr ⟨a.key, by simp⟩)

end Task

end Geocoding.Engine
