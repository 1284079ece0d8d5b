import Geocoding.Proofs.Double.Order
import Geocoding.Proofs.FiredToken
import Mathlib.Tactic.NormNum

/-!
# What a reverse lookup asks and reports

A reverse lookup asks the backend about points on earth only, and then asks once, about that very point. All that
can come of it is told by the coordinates and the backend's reply: nothing is asked again, and no failure is made
into a place.
-/

namespace Geocoding

/-! ## The range of a coordinate -/

namespace Double

/-- A number between two others, both included. Infinities and NaN are between none. -/
def Enclosed (low high : ℚ) (x : Double) : Prop :=
  x.isFinite = true ∧ low ≤ x.value ∧ x.value ≤ high

variable {low high : ℚ}

theorem not_enclosed_of_not_isFinite {x : Double} (h : x.isFinite = false) : ¬ x.Enclosed low high := by
  rintro ⟨hfinite, -⟩
  rw [h] at hfinite
  exact Bool.false_ne_true hfinite

/-- The range between a number and its negative. -/
theorem between_neg_iff {bound : Double} {b : ℚ} (hfinite : bound.isFinite = true) (hvalue : bound.value = b)
    (x : Double) : x.between bound.neg bound = true ↔ x.Enclosed (-b) b := by
  rw [between_iff ((isFinite_neg bound).trans hfinite) hfinite, value_neg, hvalue, Enclosed]

end Double

namespace Reverse

open Program

variable {latitude longitude : Double}

/-- The poles and the antimeridian belong to the earth, on either side. -/
def OnEarth (latitude longitude : Double) : Prop :=
  latitude.Enclosed (-90) 90 ∧ longitude.Enclosed (-180) 180

theorem isOnEarth_iff : isOnEarth latitude longitude = true ↔ OnEarth latitude longitude := by
  have hlatitude : (Double.ofNat 90).value = 90 := by
    have hparts : (Double.ofNat 90).decompose = (6333186975989760, -46) := by decide +kernel
    rw [Double.value_of_decompose (by decide +kernel) hparts]
    norm_num
  have hlongitude : (Double.ofNat 180).value = 180 := by
    have hparts : (Double.ofNat 180).decompose = (6333186975989760, -45) := by decide +kernel
    rw [Double.value_of_decompose (by decide +kernel) hparts]
    norm_num
  rw [isOnEarth, Bool.and_eq_true, Double.between_neg_iff (by decide +kernel) hlatitude,
    Double.between_neg_iff (by decide +kernel) hlongitude, OnEarth]

/-! ## Lookups -/

theorem lookup_of_not_onEarth (h : ¬ OnEarth latitude longitude) :
    lookup latitude longitude = .done (.error (.invalidCoordinates latitude longitude)) := by
  have hrange : isOnEarth latitude longitude = false := Bool.eq_false_iff.2 (mt isOnEarth_iff.1 h)
  rw [lookup, hrange]
  rfl

theorem lookup_of_onEarth (h : OnEarth latitude longitude) :
    lookup latitude longitude =
      (Spatial.findNearest latitude longitude).bind fun reply => .done (placeOf latitude longitude reply) := by
  have hrange : isOnEarth latitude longitude = true := isOnEarth_iff.2 h
  rw [lookup, hrange]
  refine congrArg (Spatial.findNearest latitude longitude).bind (funext ?_)
  rintro (e | _ | row) <;> rfl

section Run

variable {σ : Type} (w : World Spatial.backend σ) (s : σ)

theorem calls_lookup (h : OnEarth latitude longitude) (hs : w.fired s = false) :
    (lookup latitude longitude).calls w s = [.reverse latitude longitude] := by
  rw [lookup_of_onEarth h]
  simp only [Spatial.findNearest, guarded, Program.bind, calls, hs, Bool.false_eq_true, if_false]
  split <;> rfl

theorem run_lookup (h : OnEarth latitude longitude) (hs : w.fired s = false) :
    (lookup latitude longitude).run w s =
      let (reply, s') := w.answer (.reverse latitude longitude) s
      (reply.map (placeOf latitude longitude), s') := by
  rw [lookup_of_onEarth h]
  simp only [Spatial.findNearest, guarded, Program.bind, run, hs, Bool.false_eq_true, if_false]
  rcases w.answer (.reverse latitude longitude) s with ⟨_ | reply, s'⟩ <;> rfl

end Run

/-- A lookup asks about points on earth only. Elsewhere it reports the coordinates as they are and changes nothing,
whether the token has fired or not. On earth it asks once, about the point as it is, unless the token has fired, and
tells what the backend replies: a row with nothing in the place of nulls, that there is none, or the same error. No
place is reported off the earth, however the backend replies and whatever the token does. -/
theorem lookup_asks_on_earth (latitude longitude : Double) :
    (¬ OnEarth latitude longitude → ∀ {σ : Type} (w : World Spatial.backend σ) (s : σ),
      (lookup latitude longitude).calls w s = [] ∧
      (lookup latitude longitude).run w s = (some (.error (.invalidCoordinates latitude longitude)), s)) ∧
    (OnEarth latitude longitude → ∀ {σ : Type} (w : World Spatial.backend σ) (s : σ), w.fired s = false →
      (lookup latitude longitude).calls w s = [.reverse latitude longitude] ∧
      (lookup latitude longitude).run w s =
        match w.answer (.reverse latitude longitude) s with
        | (some (.ok (some row)), s') => (some (.ok {
            street := row.street.getD ""
            city := row.city.getD ""
            state := row.state.getD ""
            zip := row.zip.getD ""
            countyFips := row.countyFips.getD ""
            rating := row.rating.getD 0 }), s')
        | (some (.ok none), s') => (some (.error (.reverseNotFound latitude longitude)), s')
        | (some (.error e), s') => (some (.error e), s')
        | (none, s') => (none, s')) ∧
    ∀ {σ : Type} (w : World Spatial.backend σ) (s : σ) (place : Place),
      ((lookup latitude longitude).run w s).1 = some (.ok place) → OnEarth latitude longitude := by
  refine ⟨fun h σ w s => ?_, fun h σ w s hs => ⟨calls_lookup w s h hs, ?_⟩, fun {σ} w s place hplace => ?_⟩
  · rw [lookup_of_not_onEarth h]
    exact ⟨rfl, rfl⟩
  · rw [run_lookup w s h hs]
    rcases w.answer (.reverse latitude longitude) s with ⟨_ | e | _ | row, s'⟩ <;> rfl
  · by_contra h
    rw [lookup_of_not_onEarth h] at hplace
    simp [run] at hplace

/-- A backend that finds a town everywhere, and counts the questions. -/
def someTown : World Spatial.backend Nat :=
  .immediate (fun _ => false) fun
    | .forward .., s => (some (.ok none), s + 1)
    | .reverse .., s => (some (.ok (some { city := some "Nome" })), s + 1)

/-- The corner of the range is a point on earth; what is not a number is none. -/
theorem lookup_asks_on_earth_corner :
    (lookup (Double.ofNat 90) (Double.ofNat 180).neg).run someTown 0 =
      (some (.ok { street := "", city := "Nome", state := "", zip := "", countyFips := "", rating := 0 }), 1) ∧
    (lookup Double.nan Double.zero.neg).run someTown 0 =
      (some (.error (.invalidCoordinates Double.nan Double.zero.neg)), 0) := by
  have hcorner : OnEarth (Double.ofNat 90) (Double.ofNat 180).neg := isOnEarth_iff.1 (by decide +kernel)
  have hnan : ¬ OnEarth Double.nan Double.zero.neg := fun h =>
    Double.not_enclosed_of_not_isFinite Double.not_isFinite_nan h.1
  exact ⟨((lookup_asks_on_earth _ _).2.1 hcorner someTown 0 rfl).2,
    ((lookup_asks_on_earth _ _).1 hnan someTown 0).2⟩

end Reverse

end Geocoding
