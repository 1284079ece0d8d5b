import Geocoding.Proofs.BatchFile
import Geocoding.Proofs.BlankAddresses.Backends
import Geocoding.Reverse
import Mathlib.Tactic.Convert

/-!
# Leaves under a fired token

The programs at the bottom ask one backend, once. What they can settle by themselves they settle first, whether
the token has fired or not; then they look at the token, and only then they ask. So a fired token keeps every
call from its backend, and takes nothing from those who would not have called.
-/

namespace Geocoding

namespace Program

variable {I J : Interface} {α β σ : Type}

/-- The calls that a run starts, in their order. -/
def calls (w : World I σ) : Program I α → σ → List I.Call
  | done _, _ => []
  | look next, s => (next (w.fired s)).calls w s
  | call c next, s => c :: match w.answer c s with
    | (some reply, s) => (next reply).calls w s
    | (none, _) => []

/-- The program, unless the token has fired. -/
def unlessFired (p : Program I (Except Error α)) : Program I (Except Error α) :=
  look fun fired => if fired then done (.error .cancelled) else p

section Fired

variable {p : Program I (Except Error α)} {w : World I σ} {s : σ}

theorem run_unlessFired (hs : w.fired s = true) : p.unlessFired.run w s = (some (.error .cancelled), s) := by
  rw [unlessFired, run, hs]
  rfl

theorem calls_unlessFired : p.unlessFired.calls w s = if w.fired s then [] else p.calls w s := by
  rw [unlessFired, calls]
  split <;> rfl

theorem unlessFired_bind {f : Except Error α → Program I (Except Error β)}
    (hf : f (.error .cancelled) = done (.error .cancelled)) : p.unlessFired.bind f = (p.bind f).unlessFired := by
  refine congrArg look (funext fun fired => ?_)
  cases fired with
  | true => exact hf
  | false => rfl

theorem unlessFired_through (carry : (c : I.Call) → Program J (I.Reply c)) :
    p.unlessFired.through carry = (p.through carry).unlessFired := by
  refine congrArg look (funext fun fired => ?_)
  cases fired <;> rfl

end Fired

/-- The program comes to its end by itself, or it asks, unless the token has fired; `early` is the outcome that it
comes to by itself. -/
inductive Leaf : Program I (Except Error α) → Option (Except Error α) → Prop
  | early (out : Except Error α) : Leaf (done out) (some out)
  | asks (c : I.Call) (next : I.Reply c → Program I (Except Error α)) : Leaf (call c next).unlessFired none

/-- A fired token stops the program in front of its first call, and makes no difference if there is none. With the
token fired, a run asks nothing and changes nothing, and it comes to the early outcome or is cancelled. A run without
a fired token asks exactly if there is no early outcome; so one run tells what comes of the other. -/
structure GivesWay (p : Program I (Except Error α)) (early : Option (Except Error α)) : Prop where
  silent : ∀ {σ : Type} (w : World I σ) (s : σ), w.fired s = true → p.calls w s = [] ∧ (p.run w s).2 = s
  outcome : ∀ {σ : Type} (w : World I σ) (s : σ), w.fired s = true →
    (p.run w s).1 = some (early.getD (.error .cancelled))
  asks : ∀ {σ : Type} (w : World I σ) (s : σ), w.fired s = false → (p.calls w s = [] ↔ early.isSome = true)
  same : ∀ {σ τ : Type} (w : World I σ) (w' : World I τ) (s : σ) (s' : τ), w.fired s = true → w'.fired s' = false →
    p.calls w' s' = [] → (p.run w s).1 = (p.run w' s').1
  cancelled : ∀ {σ τ : Type} (w : World I σ) (w' : World I τ) (s : σ) (s' : τ), w.fired s = true →
    w'.fired s' = false → p.calls w' s' ≠ [] → (p.run w s).1 = some (.error .cancelled)

namespace Leaf

variable {p : Program I (Except Error α)} {early : Option (Except Error α)}

theorem givesWay (h : Leaf p early) : GivesWay p early := by
  cases h with
  | early out =>
    exact {
      silent := fun _ _ _ => ⟨rfl, rfl⟩
      outcome := fun _ _ _ => rfl
      asks := fun _ _ _ => iff_of_true rfl rfl
      same := fun _ _ _ _ _ _ _ => rfl
      cancelled := fun _ _ _ _ _ _ hcalls => absurd rfl hcalls }
  | asks c next =>
    have hcalls {σ : Type} (w : World I σ) (s : σ) (hs : w.fired s = false) :
        (call c next).unlessFired.calls w s ≠ [] := by
      rw [calls_unlessFired, hs, if_neg Bool.false_ne_true, calls]
      exact List.cons_ne_nil _ _
    exact {
      silent := fun w s hs => ⟨by rw [calls_unlessFired, if_pos hs], by rw [run_unlessFired hs]⟩
      outcome := fun w s hs => by rw [run_unlessFired hs]; rfl
      asks := fun w s hs => iff_of_false (hcalls w s hs) Bool.false_ne_true
      same := fun w w' s s' _ hs' hnone => absurd hnone (hcalls w' s' hs')
      cancelled := fun w w' s s' hs _ _ => by rw [run_unlessFired hs] }

/-- An outcome may be made into another, as long as a cancelled run stays one. -/
theorem map (h : Leaf p early) {f : Except Error α → Program I (Except Error β)} {g : Except Error α → Except Error β}
    (hf : ∀ out, f out = done (g out)) (hg : g (.error .cancelled) = .error .cancelled) :
    Leaf (p.bind f) (early.map g) := by
  obtain rfl : f = fun out => done (g out) := funext hf
  cases h with
  | early out => exact .early (g out)
  | asks c next =>
    rw [unlessFired_bind (f := fun out => done (g out)) (congrArg done hg)]
    exact .asks c _

/-- A call may be carried out by others, as long as there is one. -/
theorem through (h : Leaf p early) {carry : (c : I.Call) → Program J (I.Reply c)}
    (hcarry : ∀ c, ∃ c' next, carry c = call c' next) : Leaf (p.through carry) early := by
  cases h with
  | early out => exact .early out
  | asks c next =>
    obtain ⟨c', next', hcall⟩ := hcarry c
    have hthrough : (call c next).through carry =
        call c' fun reply => (next' reply).bind fun reply => (next reply).through carry := by
      rw [Program.through, hcall]
      rfl
    rw [unlessFired_through, hthrough]
    exact .asks c' _

end Leaf

/-- A guarded call gives way. -/
theorem leaf_guarded (c : I.Call) : Leaf (guarded I c) none :=
  .asks c done

end Program

open Program

/-- A request that waits for a permit gives way. -/
theorem Http.leaf_permitted {α : Type} (r : Request) (g : Except Error Response → Except Error α) :
    Leaf (permitted.bind fun
      | .error e => done (.error e)
      | .ok () => (send r).bind fun reply => done (g reply)) none := by
  have hleaf : Leaf (call r fun reply => done (g reply) : Program web (Except Error α)).unlessFired none := .asks _ _
  exact (congrArg (Leaf · none) (permitted_bind_send r g)).mpr hleaf

/-- A blank address has an outcome of its own. -/
theorem leaf_of_oneLine {I : Interface} {p : Program I (Except Error Resolution)}
    {early : Option (Except Error Resolution)} {a : Address} {source : String}
    (hblank : a.oneLine = "" → p = done (.ok (.unmatched source))) (hline : a.oneLine ≠ "" → Leaf p early) :
    Leaf p (if a.isBlank then some (.ok (.unmatched source)) else early) := by
  by_cases h : a.oneLine = ""
  · rw [if_pos (Address.oneLine_eq_empty_iff.1 h), hblank h]
    exact .early _
  · rw [if_neg (mt Address.oneLine_eq_empty_iff.2 h)]
    exact hline h

/-- The result of a lookup that may find nothing. -/
def resolved {X : Type} (source : String) (f : X → Resolution) (out : Except Error (Option X)) :
    Except Error Resolution :=
  out.map fun found => found.elim (.unmatched source) f

/-! ## The geocoders -/

namespace Census

theorem leaf_lookup (client : Client) (line : String) : Leaf (client.lookup line) none :=
  Http.leaf_permitted _ _

theorem leaf_submit (client : Client) (rows : List BatchRow) :
    Leaf (client.submit rows) (if rows = [] then some (.ok [])
      else if maxRows < rows.length then some (.error (oversized rows.length)) else none) := by
  unfold Client.submit
  by_cases hnone : rows = []
  · rw [hnone]
    exact .early _
  rw [if_neg (mt List.isEmpty_iff.1 hnone), if_neg hnone]
  by_cases hsize : maxRows < rows.length
  · rw [if_pos hsize, if_pos hsize]
    exact .early _
  · rw [if_neg hsize, if_neg hsize]
    exact Http.leaf_permitted _ _

theorem leaf_geocodeBulk (client : Client) (addresses : List Address) :
    Leaf (client.geocodeBulk addresses) (if present addresses = [] then some (.ok (answersOf addresses []))
      else if maxRows < (present addresses).length then some (.error (oversized (present addresses).length))
      else none) := by
  rw [geocodeBulk_eq]
  have hleaf := (leaf_submit client ((present addresses).map BatchRow.ofAddress)).map
    (g := Except.map (answersOf addresses)) (fun _ => rfl) rfl
  rw [List.length_map, if_congr List.map_eq_nil_iff rfl rfl] at hleaf
  convert hleaf using 1
  split_ifs <;> rfl

theorem leaf_geocode (client : Client) (a : Address) :
    Leaf (client.geocode a) (if a.isBlank then some (.ok (.unmatched source)) else none) := by
  refine leaf_of_oneLine (fun h => if_pos h) fun h => ?_
  have hbind : client.geocode a = (client.lookup a.oneLine).bind _ := if_neg h
  rw [hbind]
  refine (leaf_lookup client a.oneLine).map (g := resolved source Found.toResolution) ?_ rfl
  rintro (e | _ | found) <;> rfl

end Census

namespace Google

theorem leaf_lookup (client : Client) (line : String) :
    Leaf (client.lookup line)
      (if client.hasKey then none else some (.error (.notConfigured "google: API key not set"))) := by
  unfold Client.lookup
  cases client.hasKey with
  | false => exact .early _
  | true => exact Http.leaf_permitted _ _

theorem leaf_geocode (client : Client) (a : Address) :
    Leaf (client.geocode a) (if a.isBlank then some (.ok (.unmatched source))
      else if client.hasKey then none else some (.error (.notConfigured "google: API key not set"))) := by
  refine leaf_of_oneLine (fun h => if_pos h) fun h => ?_
  have hbind : client.geocode a = (client.lookup a.oneLine).bind _ := if_neg h
  -- The want of a key is an error, and stays the same one.
  have hearly : (if client.hasKey then none else some (.error (.notConfigured "google: API key not set"))) =
      (if client.hasKey then none else some (.error (.notConfigured "google: API key not set"))).map
        (resolved source Found.toResolution) := by split <;> rfl
  rw [hbind, hearly]
  refine (leaf_lookup client a.oneLine).map ?_ rfl
  rintro (e | _ | found) <;> rfl

end Google

namespace Spatial

theorem leaf_find (line : String) (maxResults : Int) : Leaf (find line maxResults) none :=
  leaf_guarded _

theorem leaf_findNearest (latitude longitude : Double) : Leaf (findNearest latitude longitude) none :=
  leaf_guarded _

/-- Every lookup is carried out by a statement. -/
theorem exists_call_bySql (c : backend.Call) : ∃ statement next, bySql c = .call statement next := by
  cases c <;> exact ⟨_, _, rfl⟩

end Spatial

theorem Tiger.leaf_geocode (settings : Settings) (a : Address) :
    Leaf (settings.geocode a) (if a.isBlank then some (.ok (.unmatched source)) else none) := by
  refine leaf_of_oneLine (fun h => if_pos h) fun h => ?_
  have hbind : settings.geocode a = (Spatial.find a.oneLine settings.maxResults).bind _ := if_neg h
  rw [hbind]
  refine (Spatial.leaf_find a.oneLine settings.maxResults).map (g := resolved source settings.toResolution) ?_ rfl
  rintro (e | _ | row) <;> rfl

namespace Reverse

/-- The place of a lookup that may find nothing. -/
def placeOf (latitude longitude : Double) : Except Error (Option Spatial.Nearest) → Except Error Place
  | .error e => .error e
  | .ok none => .error (.reverseNotFound latitude longitude)
  | .ok (some row) => .ok (placeOfRow row)

theorem leaf_lookup (latitude longitude : Double) :
    Leaf (lookup latitude longitude)
      (if isOnEarth latitude longitude then none else some (.error (.invalidCoordinates latitude longitude))) := by
  unfold lookup
  cases isOnEarth latitude longitude with
  | false => exact .early _
  | true =>
    refine (Spatial.leaf_findNearest latitude longitude).map (g := placeOf latitude longitude) ?_ rfl
    rintro (e | _ | row) <;> rfl

end Reverse

/-- None of the eight ways to ask for an address, for many or for a place starts a request, a statement or another
lookup once the token has fired. What they answer without one, they answer as ever; otherwise they are cancelled. -/
theorem leaves_give_way :
    (∀ (client : Census.Client) (a : Address), GivesWay (client.geocode a)
      (if a.isBlank then some (.ok (.unmatched Census.source)) else none)) ∧
    (∀ (client : Census.Client) (addresses : List Address), GivesWay (client.geocodeBulk addresses)
      (if Census.present addresses = [] then some (.ok (Census.answersOf addresses []))
        else if Census.maxRows < (Census.present addresses).length then
          some (.error (Census.oversized (Census.present addresses).length))
        else none)) ∧
    (∀ (client : Census.Client) (line : String), GivesWay (client.lookup line) none) ∧
    (∀ (client : Census.Client) (rows : List Census.BatchRow), GivesWay (client.submit rows)
      (if rows = [] then some (.ok [])
        else if Census.maxRows < rows.length then some (.error (Census.oversized rows.length)) else none)) ∧
    (∀ (client : Google.Client) (a : Address), GivesWay (client.geocode a)
      (if a.isBlank then some (.ok (.unmatched Google.source))
        else if client.hasKey then none else some (.error (.notConfigured "google: API key not set")))) ∧
    (∀ (client : Google.Client) (line : String), GivesWay (client.lookup line)
      (if client.hasKey then none else some (.error (.notConfigured "google: API key not set")))) ∧
    (∀ (settings : Tiger.Settings) (a : Address),
      let early := if a.isBlank then some (.ok (.unmatched Tiger.source)) else none
      GivesWay (settings.geocode a) early ∧ GivesWay ((settings.geocode a).through Spatial.bySql) early) ∧
    ∀ (latitude longitude : Double),
      let early := if Reverse.isOnEarth latitude longitude then none
        else some (.error (.invalidCoordinates latitude longitude))
      GivesWay (Reverse.lookup latitude longitude) early ∧
        GivesWay ((Reverse.lookup latitude longitude).through Spatial.bySql) early := by
  refine ⟨fun client a => ?_, fun client addresses => ?_, fun client line => ?_, fun client rows => ?_,
    fun client a => ?_, fun client line => ?_, fun settings a => ?_, fun latitude longitude => ?_⟩
  · exact (Census.leaf_geocode client a).givesWay
  · exact (Census.leaf_geocodeBulk client addresses).givesWay
  · exact (Census.leaf_lookup client line).givesWay
  · exact (Census.leaf_submit client rows).givesWay
  · exact (Google.leaf_geocode client a).givesWay
  · exact (Google.leaf_lookup client line).givesWay
  · have hleaf := Tiger.leaf_geocode settings a
    exact ⟨hleaf.givesWay, (hleaf.through Spatial.exists_call_bySql).givesWay⟩
  · have hleaf := Reverse.leaf_lookup latitude longitude
    exact ⟨hleaf.givesWay, (hleaf.through Spatial.exists_call_bySql).givesWay⟩

end Geocoding
