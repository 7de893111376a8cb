import Switchboard.Json.Decode
import Switchboard.Json.Printer
import Switchboard.Program.Document

/-!
# Program documents as JSON

Fields that are missing from a document are left out of its JSON, and `null`
reads as missing. A loop opens two containers, the record of its step and the
array of its body, and a document may have `Json.depthLimit` of them open at a
time. Reading follows that number down, which is why it ends.
-/

namespace Switchboard

open Json

/-! ## Reading -/

/-- The names of the fields of a step, in order. -/
def stepFields : List String :=
  ["id", "type", "relay", "action", "durationType", "duration", "durationMin",
    "durationMax", "iterations", "loopSteps"]

/-- The body of a loop, read by `steps`, if it is present and not `null`. -/
def loopBody? {α : Type} (steps : Json → Option α) : Option Json → Option (Option α)
  | none => some none
  | some .null => some none
  | some v => (steps v).map some

/-- **Reads a step.** -/
def StepDocument.decoder : Decoder (StepDocument (Option String))
  | 0, _ => none
  | depth + 1, v => do
    let fields ← fields? stepFields 10 v
    let id ← fields.optional "id" Decoder.text depth
    let type ← fields.optional "type" Decoder.text depth
    let relay ← fields.optional "relay" Decoder.int64 depth
    let action ← fields.optional "action" Decoder.text depth
    let durationType ← fields.optional "durationType" Decoder.text depth
    let duration ← fields.optional "duration" Decoder.int64 depth
    let durationMin ← fields.optional "durationMin" Decoder.int64 depth
    let durationMax ← fields.optional "durationMax" Decoder.int64 depth
    let iterations ← fields.optional "iterations" Decoder.int64 depth
    let steps : Json → Option (List (StepDocument (Option String))) :=
      match depth with
      | 0 => fun _ => none
      | depth + 1 => fun
        | .arr items => items.mapM (StepDocument.decoder depth)
        | _ => none
    let body ← loopBody? steps (fields.lookup "loopSteps")
    some (.mk id type relay action durationType duration durationMin durationMax iterations body)

/-- Reads a program document. -/
def ProgramDocument.decoder : Decoder (ProgramDocument (Option String)) :=
  Decoder.record ["id", "name", "enabled", "steps"] 4 fun depth fields => do
    let id ← fields.optional "id" Decoder.text depth
    let name ← fields.optional "name" Decoder.text depth
    let enabled ← fields.optional "enabled" Decoder.bool depth
    let steps ← fields.optional "steps" (Decoder.list StepDocument.decoder) depth
    some { id, name, enabled, steps }

/-! ## Writing -/

/-- A member of a record, unless its value is missing. -/
def member {α : Type} (name : String) (write : α → Json) (value : Option α) :
    List (String × Json) :=
  match value with
  | some v => [(name, write v)]
  | none => []

namespace StepDocument

variable {ι : Type}

mutual

/-- **A step as JSON**, given how its identifier is written if at all. -/
def toJson (idOf : ι → Option String) : StepDocument ι → Json
  | mk id type relay action durationType duration durationMin durationMax iterations body =>
    .record (member "id" .text (idOf id) ++ member "type" .text type ++
      member "relay" .int relay ++ member "action" .text action ++
      member "durationType" .text durationType ++ member "duration" .int duration ++
      member "durationMin" .int durationMin ++ member "durationMax" .int durationMax ++
      member "iterations" .int iterations ++ bodyToJson idOf body)

/-- The body of a loop as a member, if there is one. -/
def bodyToJson (idOf : ι → Option String) :
    Option (List (StepDocument ι)) → List (String × Json)
  | none => []
  | some steps => [("loopSteps", .arr (toJsonAll idOf steps))]

/-- Steps as JSON values. -/
def toJsonAll (idOf : ι → Option String) : List (StepDocument ι) → List Json
  | [] => []
  | s :: rest => toJson idOf s :: toJsonAll idOf rest

end

end StepDocument

/-- A program document as JSON. -/
def ProgramDocument.toJson {ι : Type} (idOf : ι → Option String) (doc : ProgramDocument ι) :
    Json :=
  .record (member "id" .text (idOf doc.id) ++ member "name" .text doc.name ++
    member "enabled" .bool doc.enabled ++
    member "steps" (fun ss => .arr (StepDocument.toJsonAll idOf ss)) doc.steps)

/-! ## Programs -/

/-- The steps of a program as a JSON array. -/
def Step.listToJson (steps : List Step) : Json :=
  .arr (StepDocument.toJsonAll some (Step.toDocuments steps))

/-- A program as JSON. -/
def Program.toJson (p : Program) : Json := p.toDocument.toJson some

/-- **The text of a program**, as it is exported. -/
def Program.toText (p : Program) : String := p.toJson.pretty

/-- **The program that a text describes**, with its missing identifiers minted,
or the first fault. -/
def Program.ofText (supply : IdSupply) (s : String) : Except Malformed Program × IdSupply :=
  match ProgramDocument.decoder.run s with
  | none => (.error .notADocument, supply)
  | some doc =>
    let named := doc.identify supply
    (named.1.toProgram, named.2)

end Switchboard
