import Geocoding.CommandLine.Run
import Geocoding.Proofs.Json
import Geocoding.Proofs.Json.Doubles
import Geocoding.Proofs.Rows

/-!
# What a line of output tells

A line is a JSON object on its own, whatever texts the row brings with it: it reads back to the tag of the row and
to its resolution. Only of the text of a coordinate it has to be known that it reads back as the coordinate.
-/

namespace Geocoding

/-! ## Coordinates -/

/-- A coordinate stands in JSON as the number with its text, if it is finite, and as null otherwise. -/
def Double.StandsAs (x : Double) (j : Json) : Prop :=
  if x.isFinite then ∃ n, j = .number n ∧ n.render = x.jsonText else j = .null

/-- The text of a coordinate reads back as the coordinate. -/
def Double.Survives (x : Double) : Prop :=
  (Json.parse? (Text.encode x.jsonText)).bind Json.toDouble? = some x

instance (x : Double) : Decidable x.Survives :=
  inferInstanceAs (Decidable (_ = _))

theorem Double.jsonText_of_not_finite {x : Double} (h : ¬ x.isFinite = true) : x.jsonText = "null" := by
  simp [jsonText, h]

theorem Double.exists_standsAs (x : Double) : ∃ j, x.StandsAs j ∧ j.WellFormed ∧ j.render = x.jsonText := by
  unfold StandsAs
  split
  next hfinite =>
    obtain ⟨n, hn, htext⟩ := exists_number hfinite
    exact ⟨.number n, ⟨n, rfl, htext⟩, hn, htext⟩
  next hfinite => exact ⟨.null, rfl, trivial, (jsonText_of_not_finite hfinite).symm⟩

/-! ## Rows -/

namespace CommandLine

/-- The members of a row, once its coordinates have been put into JSON. -/
def rowMembers (id : String) (r : Resolution) (latitude longitude : Json) : List (String × Json) := [
  ("id", .string (some id)),
  ("latitude", latitude),
  ("longitude", longitude),
  ("source", .string (some r.source)),
  ("quality", (r.quality.map fun q => Json.string (some q.name)).getD .null),
  ("matched", .bool r.matched),
  ("rating", .number (.ofInt r.rating)),
  ("county_fips", .string (some r.countyFips))]

/-- A line is a JSON object without line breaks that reads back to a tag and a resolution. -/
structure Tells (line id : String) (r : Resolution) : Prop where
  unbroken : ∀ c ∈ line.toList, c ≠ '\n' ∧ c ≠ '\r'
  object : ∃ latitude longitude, r.latitude.StandsAs latitude ∧ r.longitude.StandsAs longitude ∧
    Json.parse? (Text.encode line) = some (.object (Json.keyed (rowMembers id r latitude longitude)))
  resolution : r.latitude.Survives → r.longitude.Survives →
    Resolution.ratingBounds.1 ≤ r.rating ∧ r.rating ≤ Resolution.ratingBounds.2 →
    Resolution.parse (Text.encode line) = .ok r

section

variable {a : Address} {r : Resolution} {latitude longitude : Json}

theorem line_eq (hlatitude : latitude.render = r.latitude.jsonText)
    (hlongitude : longitude.render = r.longitude.jsonText) :
    line a r = Json.render (.object (Json.keyed (rowMembers a.id r latitude longitude))) := by
  rw [← Json.objectText_render, line]
  congr 1
  simp only [rowMembers, List.map_cons, List.map_nil, hlatitude, hlongitude, Resolution.members, Json.render,
    Json.Number.render_ofInt, Option.getD_some]
  cases r.quality <;> rfl

theorem wellFormed_rowMembers (id : String) (r : Resolution) (hlatitude : latitude.WellFormed)
    (hlongitude : longitude.WellFormed) : ∀ m ∈ rowMembers id r latitude longitude, m.2.WellFormed := by
  have hquality : ((r.quality.map fun q => Json.string (some q.name)).getD .null).WellFormed := by
    cases r.quality
    · trivial
    · rfl
  simp only [rowMembers, List.forall_mem_cons]
  exact ⟨rfl, hlatitude, hlongitude, rfl, hquality, trivial, Json.Number.wellFormed_ofInt r.rating, rfl, by simp⟩

theorem printable_line (a : Address) (r : Resolution) : Json.Printable (line a r) := by
  have hcoordinate : ∀ x : Double, Json.Printable x.jsonText := by
    intro x
    by_cases hfinite : x.isFinite = true
    · obtain ⟨n, hn, htext⟩ := Double.exists_number hfinite
      exact htext ▸ Json.Number.printable_render hn
    · rw [Double.jsonText_of_not_finite hfinite]
      decide
  -- The members are quoted texts, numbers and literals.
  apply Json.printable_objectText
  simp only [Resolution.members, List.forall_mem_cons]
  refine ⟨Json.printable_quote _, hcoordinate _, hcoordinate _, Json.printable_quote _, ?_, ?_, ?_,
    Json.printable_quote _, by simp⟩
  · cases r.quality
    · decide
    · exact Json.printable_quote _
  · split <;> decide
  · rw [← Json.Number.render_ofInt]
    exact Json.Number.printable_render (Json.Number.wellFormed_ofInt r.rating)

theorem ofJson?_rowMembers (id : String) (hlatitude : latitude.toDouble? = some r.latitude)
    (hlongitude : longitude.toDouble? = some r.longitude)
    (hrating : Resolution.ratingBounds.1 ≤ r.rating ∧ r.rating ≤ Resolution.ratingBounds.2) :
    Resolution.ofJson? (.object (Json.keyed (rowMembers id r latitude longitude))) = some r := by
  -- The fields of the record are the members behind the tag, in the order in which they are written.
  have hfields : Json.fields [["latitude"], ["longitude"], ["source"], ["quality"], ["matched"], ["rating"],
      ["county_fips"]] (.object (Json.keyed (rowMembers id r latitude longitude))) =
        some ((rowMembers id r latitude longitude).tail.map fun m => some m.2) := by
    rfl
  have hquality : Json.toOption? Quality.ofJson? ((r.quality.map fun q => Json.string (some q.name)).getD .null) =
      some r.quality := by
    cases r.quality with
    | none => rfl
    | some q => simp [Json.toOption?, Quality.ofJson?, Quality.ofName?_name]
  have hinteger : Json.toInt? Resolution.ratingBounds.1 Resolution.ratingBounds.2 (.number (.ofInt r.rating)) =
      some r.rating := by
    simp only [Json.toInt?, Json.Number.toInt?_ofInt, Option.bind_eq_bind, Option.bind_some, if_pos hrating]
  rw [Resolution.ofJson?, hfields]
  simp only [rowMembers, List.tail_cons, List.map_cons, List.map_nil, Option.bind_eq_bind, Option.bind_some,
    Json.required, Json.orDefault, hlatitude, hlongitude, hquality, hinteger, Json.toText?, Json.toBool?]

theorem tells_line (a : Address) (r : Resolution) : Tells (line a r) a.id r := by
  obtain ⟨latitude, hlatitude, hlatitudeWell, hlatitudeText⟩ := r.latitude.exists_standsAs
  obtain ⟨longitude, hlongitude, hlongitudeWell, hlongitudeText⟩ := r.longitude.exists_standsAs
  have hobject : Json.parse? (Text.encode (line a r)) =
      some (.object (Json.keyed (rowMembers a.id r latitude longitude))) := by
    rw [line_eq hlatitudeText hlongitudeText]
    exact Json.parse?_render (Json.wellFormed_keyed (wellFormed_rowMembers a.id r hlatitudeWell hlongitudeWell))
  refine ⟨fun c hc => ?_, ⟨latitude, longitude, hlatitude, hlongitude, hobject⟩, fun hlat hlong hrating => ?_⟩
  · -- A line is printable, and line breaks are not.
    have hprintable := printable_line a r c hc
    constructor <;> rintro rfl <;> exact absurd hprintable (by decide)
  · rw [Double.Survives, ← hlatitudeText, Json.parse?_render hlatitudeWell] at hlat
    rw [Double.Survives, ← hlongitudeText, Json.parse?_render hlongitudeWell] at hlong
    rw [Resolution.parse, hobject, Option.bind_some, ofJson?_rowMembers a.id hlat hlong hrating]

end

end CommandLine

end Geocoding
