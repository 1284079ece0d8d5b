import Geocoding.Json.Basic

/-!
# Records in JSON

A record is an object, whose unknown keys are ignored, or an array of its fields in order. `fields` finds
the values of the fields; what each of them may be is said by a decoder.
-/

namespace Geocoding.Json

/-- The value of a text. -/
def toText? : Json → Option String
  | .string s => s
  | _ => none

/-- The value of a switch. -/
def toBool? : Json → Option Bool
  | .bool b => some b
  | _ => none

/-- The value of a number. -/
def toDouble? : Json → Option Double
  | .number n => n.toDouble?
  | _ => none

/-- The value of an integer between bounds, both included. -/
def toInt? (low high : Int) : Json → Option Int
  | .number n => do
    let i ← n.toInt?
    if low ≤ i ∧ i ≤ high then some i else none
  | _ => none

/-- The value of a natural number up to a bound, included. -/
def toNat? (high : Nat) (j : Json) : Option Nat :=
  (j.toInt? 0 high).map Int.toNat

/-- The values of a list. -/
def toList? {α : Type} (item : Json → Option α) : Json → Option (List α)
  | .array items => items.mapM item
  | _ => none

/-- A value that may be null. -/
def toOption? {α : Type} (item : Json → Option α) : Json → Option (Option α)
  | .null => some none
  | j => (item j).map some

/-- The values under one of the names. -/
def valuesOf (names : List String) (members : List (String × Json)) : List Json :=
  (members.filter fun m => names.contains m.1).map (·.2)

/-- The values of the fields of a record, each given with its names; a field may be missing, but not be
there twice, and every key has to stand for a text. -/
def fields (names : List (List String)) : Json → Option (List (Option Json))
  | .object members => do
    let members ← members.mapM fun (key, j) => key.map fun key => (key, j)
    names.mapM fun names => match valuesOf names members with
      | [] => some none
      | [j] => some (some j)
      | _ => none
  | .array items =>
    if items.length ≤ names.length then
      some ((List.range names.length).map fun i => items[i]?)
    else none
  | _ => none

/-- The value of a field that has a default. -/
def orDefault {α : Type} (decode : Json → Option α) (default : α) : Option Json → Option α
  | none => some default
  | some j => decode j

/-- The value of a field that must be there. -/
def required {α : Type} (decode : Json → Option α) : Option Json → Option α
  | none => none
  | some j => decode j

end Geocoding.Json
