import Geocoding.Database.Sql
import Geocoding.Services

/-!
# A scripted database

It answers statements by a script and remembers the rows that were written into it, whatever their age.
-/

namespace Geocoding.Rehearsal

/-- A database: what it answers to a statement, where the script says so, the rows written so far by their
keys, and the statements sent so far, the last one first. -/
structure Database where
  script : Sql.Statement → Option (Except Error (List Sql.Row)) := fun _ => none
  rows : List (String × Sql.Row) := []
  sent : List Sql.Statement := []

namespace Database

/-- What happens if the script says nothing: rows are written and read, and nothing else is found. -/
def answerUnscripted (d : Database) : Sql.Statement → List Sql.Row × Database
  | .upsert _ e => ([], { d with rows := (e.addressHash, Sql.columnsOf e) :: d.rows })
  | .fetch _ key _ => ((d.rows.lookup key).toList, d)
  | _ => ([], d)

/-- Answer a statement. -/
def answer (d : Database) (s : Sql.Statement) : Except Error (List Sql.Row) × Database :=
  let d := { d with sent := s :: d.sent }
  match d.script s with
  | some (.error e) => (.error e, d)
  | some (.ok rows) => (.ok rows, (d.answerUnscripted s).2)
  | none => let (rows, d) := d.answerUnscripted s; (.ok rows, d)

/-- The statements sent so far, in order. -/
def log (d : Database) : List Sql.Statement := d.sent.reverse

/-- A database in a run, and whether the token of the run has fired. -/
structure Run where
  database : Database
  fired : Bool := false

/-- The database as the only collaborator. -/
def world : World Sql.database Run :=
  World.immediate Run.fired fun s r =>
    let (reply, database) := r.database.answer s
    (some reply, { r with database })

/-- The database as the only service that can be reached. -/
def services : World services Run :=
  World.immediate Run.fired fun c r => match c with
    | .request _ => (some (.error (.http "")), r)
    | .statement s =>
      let (reply, database) := r.database.answer s
      (some reply, { r with database })

end Database

end Geocoding.Rehearsal
