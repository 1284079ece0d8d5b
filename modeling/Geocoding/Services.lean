import Geocoding.Http.Basic
import Geocoding.Database.Spatial

/-!
# Outside services

Everything outside the process that resolving addresses may need: web services and the spatial database.
Programs that ask only one of them are programs that may ask both.
-/

namespace Geocoding

/-- A call to an outside service. -/
inductive Service where
  | request (r : Http.Request)
  | statement (s : Sql.Statement)

/-- What a service answers. -/
abbrev Service.Answer : Service → Type
  | request _ => Http.Response
  | statement _ => List Sql.Row

/-- Asking outside services. -/
abbrev services : Interface where
  Call := Service
  Answer := Service.Answer

variable {α : Type}

/-- A program that asks web services. -/
def Program.overWeb (p : Program Http.web α) : Program services α :=
  p.through fun r => Program.ask services (.request r)

/-- A program that asks the database. -/
def Program.overDatabase (p : Program Sql.database α) : Program services α :=
  p.through fun s => Program.ask services (.statement s)

/-- A program that looks up in the spatial database. -/
def Program.overSpatial (p : Program Spatial.backend α) : Program services α :=
  (p.through Spatial.bySql).overDatabase

/-- Services that cannot be reached; the state says whether the token has fired. -/
def Service.unreachable : World services Bool :=
  World.immediate id fun c fired => match c with
    | .request _ => (some (.error (.http "")), fired)
    | .statement _ => (some (.error (.database "")), fired)

end Geocoding
