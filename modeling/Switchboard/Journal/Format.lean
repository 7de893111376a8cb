import Switchboard.Journal.Basic
import Switchboard.Relay.Format
import Switchboard.Time.Reader

/-!
# Journal entries as JSON
-/

namespace Switchboard.Journal.Entry

open Json

/-- Reads a point in time. -/
def timeDecoder : Decoder Timestamp := fun depth v =>
  Decoder.text depth v >>= Timestamp.ofText?

/-- **Reads an entry.** -/
def decoder : Decoder Entry :=
  Decoder.record ["id", "relay", "action", "timestamp"] 4 fun depth fields => do
    let id ← fields.required "id" Decoder.text depth
    let output ← fields.required "relay" Relay.decoder depth
    let power ← fields.required "action" Power.decoder depth
    let time ← fields.required "timestamp" timeDecoder depth
    some ⟨id, output, power, time⟩

/-- An entry as JSON. -/
def toJson (e : Entry) : Json :=
  .record [("id", .text e.id), ("relay", e.output.toJson), ("action", e.power.toJson),
    ("timestamp", .text e.time.text)]

end Switchboard.Journal.Entry
