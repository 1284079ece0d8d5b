import Geocoding.Error
import Geocoding.Text.Blank
import Geocoding.Json.Decode

/-!
# Precision tiers

How precisely a point was found, most precise first.
-/

namespace Geocoding

/-- A precision tier. -/
inductive Quality where
  | rooftop
  | range
  | centroid
  | approximate
deriving DecidableEq, Repr

namespace Quality

/-- The name of a tier. -/
def name : Quality → String
  | rooftop => "rooftop"
  | range => "range"
  | centroid => "centroid"
  | approximate => "approximate"

/-- The tier with exactly that name. -/
def ofName? : String → Option Quality
  | "rooftop" => some rooftop
  | "range" => some range
  | "centroid" => some centroid
  | "approximate" => some approximate
  | _ => none

theorem ofName?_name (q : Quality) : ofName? q.name = some q := by
  cases q <;> rfl

/-- Read a tier, without regard to the case of its letters and the blanks around it. -/
def parse (s : String) : Except Error Quality :=
  let word := Text.lowerAscii (Text.trim s)
  match ofName? word with
  | some q => .ok q
  | none => .error (.parse s!"unknown quality '{word}'")

/-- The place in the order of tiers, 0 the most precise. -/
def rank : Quality → Nat
  | rooftop => 0
  | range => 1
  | centroid => 2
  | approximate => 3

/-- The tier of a rating of the TIGER geocoder, where 0 is best. -/
def ofRating (rating : Int) : Quality :=
  if rating < 10 then rooftop
  else if rating < 20 then range
  else if rating < 50 then centroid
  else approximate

/-- The tier that Google's name for the kind of a location stands for. -/
def ofLocationType : String → Quality
  | "ROOFTOP" => rooftop
  | "RANGE_INTERPOLATED" => range
  | "GEOMETRIC_CENTER" => centroid
  | _ => approximate

/-- The tiers in order, most precise first. -/
def sort (qs : List Quality) : List Quality :=
  qs.mergeSort fun a b => a.rank ≤ b.rank

/-- A tier in JSON: its name, or an object with the name as the only key and null under it. -/
def ofJson? : Json → Option Quality
  | .string (some s) => ofName? s
  | .object [(some s, .null)] => ofName? s
  | _ => none

end Quality

end Geocoding
