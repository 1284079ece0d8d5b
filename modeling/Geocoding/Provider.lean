import Geocoding.Error
import Geocoding.Text.Blank
import Geocoding.Text.Ascii

/-!
# Kinds of providers

The backends that a configuration can name, and the order in which they are asked.
-/

namespace Geocoding

/-- A kind of backend. -/
inductive ProviderKind where
  | tiger
  | census
  | google
deriving DecidableEq, Repr

namespace ProviderKind

/-- The name of a kind, which results carry as their source. -/
def name : ProviderKind → String
  | tiger => "tiger"
  | census => "census"
  | google => "google"

/-- The kind with exactly that name. -/
def ofName? : String → Option ProviderKind
  | "tiger" => some tiger
  | "census" => some census
  | "google" => some google
  | _ => none

/-- Read a kind, without regard to the case of its letters and the blanks around it. -/
def parse (s : String) : Except Error ProviderKind :=
  let word := Text.lowerAscii (Text.trim s)
  match ofName? word with
  | some kind => .ok kind
  | none => .error (.config s!"unknown provider '{word}' (expected tiger, census or google)")

/-- Read the rest of an order, given the kinds read before. -/
def parseAfter (seen : List ProviderKind) : List String → Except Error (List ProviderKind)
  | [] => .ok []
  | s :: names => do
    let kind ← parse s
    if seen.contains kind then throw (.config s!"provider '{kind.name}' listed twice")
    return kind :: (← parseAfter (kind :: seen) names)

/-- Read an order: at least one kind, and none twice. -/
def parseOrder (names : List String) : Except Error (List ProviderKind) :=
  if names.isEmpty then .error (.config "provider order is empty") else parseAfter [] names

end ProviderKind

end Geocoding
