import Geocoding.Text.Ascii
import Geocoding.Tiger
import Geocoding.Setup

/-!
# Scripts

A rehearsal runs the engine, or one of its backends, with stand-ins for everything that is outside. A stand-in
follows a script: what it does depends on a text of the call (the street, the address on one line, a
parameter), by the first rule whose text occurs in it.
-/

namespace Geocoding.Rehearsal

/-- A choice by a text of the call. -/
structure Choice (α : Type) where
  rules : List (String × α) := []
  default : α

/-- What is chosen. -/
def Choice.of {α : Type} (c : Choice α) (text : String) : α :=
  match c.rules.find? fun rule => Text.contains text rule.1 with
  | some rule => rule.2
  | none => c.default

/-- What a scripted provider does about an address. -/
inductive Act where
  | answer (r : Resolution)
  | fail (e : Error)
  | leaveOut
  | breakDown

/-- An act, and whether it fires the token first. -/
structure Cue where
  act : Act
  fires : Bool := false

/-- The part of a script for bulk submissions. `onCall` says what comes before the rows of some calls,
which are counted from 0, and `extra` are answers that nobody asked for. -/
structure BulkScript where
  limit : Nat := 10000
  cues : Choice Cue
  onCall : List (Nat × Cue) := []
  extra : List (String × Resolution) := []
  delay : Nat := 0

/-- The script of a provider; its calls take `delay` milliseconds. -/
structure Script where
  name : String
  available : Bool := true
  cues : Choice Cue
  delay : Nat := 0
  bulk : Option BulkScript := none

/-- What plays the part of a provider: a script; the provider by database, over a scripted database; or a
provider by web service, which cannot be reached. -/
inductive Actor where
  | scripted (s : Script)
  | tiger (settings : Tiger.Settings) (rows : Choice (Except Error (Option Spatial.Match)))
  | web (b : Backend)

/-- The provider, as the engine sees it. -/
def Actor.toProvider : Actor → Provider
  | scripted s => { name := s.name, available := s.available, bulkLimit := s.bulk.map BulkScript.limit }
  | tiger settings _ => (Backend.tiger settings).toProvider
  | web b => b.toProvider

/-- The answer of an act about a single address, if there is one; leaving it out counts as unmatched. -/
def Act.reply? (name : String) : Act → Option (Except Error Resolution)
  | answer r => some (.ok r)
  | fail e => some (.error e)
  | leaveOut => some (.ok (.unmatched name))
  | breakDown => none

/-- The answers to rows, and whether the token was fired on the way. The first row that fails ends the
submission, and so does a breakdown. -/
def BulkScript.answerRows (s : BulkScript) (answers : Answers) :
    List Address → Option (Except Error Answers) × Bool
  | [] => (some (.ok (answers.insertAll s.extra)), false)
  | row :: rows =>
    let cue := s.cues.of row.street
    let (reply, fires) := match cue.act with
      | .answer r => s.answerRows (answers.insert row.id r) rows
      | .fail e => (some (.error e), false)
      | .leaveOut => s.answerRows answers rows
      | .breakDown => (none, false)
    (reply, cue.fires || fires)

/-- The reply to a submission, which is the `n`-th one, and whether the token was fired on the way. -/
def BulkScript.reply (s : BulkScript) (n : Nat) (rows : List Address) :
    Option (Except Error Answers) × Bool :=
  match s.onCall.lookup n with
  | some ⟨.fail e, fires⟩ => (some (.error e), fires)
  | some ⟨_, fires⟩ =>
    let (reply, later) := s.answerRows .empty rows
    (reply, fires || later)
  | none => s.answerRows .empty rows

end Geocoding.Rehearsal
