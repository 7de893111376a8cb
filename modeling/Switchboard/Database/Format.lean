import Switchboard.Database
import Switchboard.Json.Decode
import Switchboard.Json.Printer

/-!
# The database as a text

A database is kept in a file as one JSON document: the rows of the catalog and
the rows of the journal. Nothing is made of the rows, so whatever they hold is
kept as it is.
-/

namespace Switchboard.Database

open Json

/-- Reads an integer of any size. -/
def integer : Decoder Int
  | _, .int n => some n
  | _, _ => none

/-- Reads a row of the catalog. -/
def programDecoder : Decoder Catalog.Row :=
  Decoder.record ["id", "name", "enabled", "steps"] 4 fun depth fields => do
    let id ← fields.required "id" Decoder.text depth
    let name ← fields.required "name" Decoder.text depth
    let enabled ← fields.required "enabled" integer depth
    let steps ← fields.required "steps" Decoder.text depth
    some ⟨id, name, enabled, steps⟩

/-- Reads a row of the journal. -/
def journalDecoder : Decoder Journal.Row :=
  Decoder.record ["id", "relay", "action", "timestamp"] 4 fun depth fields => do
    let id ← fields.required "id" Decoder.text depth
    let output ← fields.required "relay" integer depth
    let power ← fields.required "action" Decoder.text depth
    let time ← fields.required "timestamp" Decoder.text depth
    some ⟨id, output, power, time⟩

/-- **Reads a database**, which mints identifiers from a given supply. -/
def decoder (ids : IdSupply) : Decoder Database :=
  Decoder.record ["programs", "journal"] 2 fun depth fields => do
    let programs ← fields.required "programs" (Decoder.list programDecoder) depth
    let journal ← fields.required "journal" (Decoder.list journalDecoder) depth
    some ⟨⟨programs, ids⟩, .ofRows Journal.usualCapacity journal⟩

/-- A row of the catalog as JSON. -/
def programJson (r : Catalog.Row) : Json :=
  .record [("id", .text r.id), ("name", .text r.name), ("enabled", .int r.enabled),
    ("steps", .text r.steps)]

/-- A row of the journal as JSON. -/
def journalJson (r : Journal.Row) : Json :=
  .record [("id", .text r.id), ("relay", .int r.output), ("action", .text r.power),
    ("timestamp", .text r.time)]

/-- **The text of a database.** -/
def toText (d : Database) : String :=
  (Json.record [("programs", .ofList programJson d.catalog.rows),
    ("journal", .ofList journalJson d.journal.rows)]).compact

/-- **The database that a text holds**, if it holds one. -/
def ofText? (ids : IdSupply) (s : String) : Option Database := (decoder ids).run s

end Switchboard.Database
