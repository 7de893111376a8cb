import Switchboard.Json.Decode
import Switchboard.Json.Printer
import Switchboard.Relay.Panel

/-!
# Relays and panels as JSON

An output is its number, a state its label, a fitting and a panel are records.
What an output drives is a record whose member `type` says which kind it is;
it may also be an array that starts with the kind. Because the kind may come
last, everything else is held until it is known, which makes this the one
place where even members that nobody reads must be well-formed text and
numbers within range.
-/

namespace Switchboard

open Json

/-- Reads an output. -/
def Relay.decoder : Decoder Relay := fun depth v =>
  Decoder.byte depth v >>= Relay.ofNat?

/-- Reads a state. -/
def Power.decoder : Decoder Power :=
  Decoder.choice [("ON", .on), ("OFF", .off)]

/-- An output as JSON. -/
def Relay.toJson (r : Relay) : Json := .nat r.val

/-- A state as JSON. -/
def Power.toJson (p : Power) : Json := .text p.label

namespace Rest

/-- The name of a resting position in a configuration. -/
def key : Rest → String
  | .closed => "normally_closed"
  | .open => "normally_open"

/-- The resting position with a given name. -/
def ofKey? (s : String) : Option Rest :=
  [("normally_closed", Rest.closed), ("normally_open", .open)].lookup s

/-- Reads a resting position from a value that was held: its name, or an
object whose only member has that name and an empty value. -/
def ofHeld? : Json → Option Rest
  | .str (some s) => ofKey? s
  | .obj [(some s, .null)] => ofKey? s
  | .obj [(some s, .obj [])] => ofKey? s
  | _ => none

end Rest

namespace Load

/-- The two kinds of load, by the name that stands in member `type`. -/
inductive Kind where
  /-- A pump. -/
  | pump
  /-- A valve. -/
  | valve
deriving Repr, DecidableEq

/-- The kind with a given name. -/
def Kind.ofKey? (s : String) : Option Kind :=
  [("pump", Kind.pump), ("valve", .valve)].lookup s

/-- Reads the kind. -/
def Kind.ofJson? : Json → Option Kind
  | .str (some s) => ofKey? s
  | _ => none

/-- The load of a kind, given the members that go with it. -/
def ofMembers? (kind : Kind) (members : List (Option String × Json)) : Option Load :=
  match kind with
  | .pump => some .pump
  | .valve =>
    match members.filter (fun m => m.1 = some "mode") with
    | [] => some (.valve .closed)
    | [(_, v)] => (Rest.ofHeld? v).map .valve
    | _ => none

/-- The load of a kind, given the items that follow it in an array. -/
def ofItems? (kind : Kind) (items : List Json) : Option Load :=
  match kind, items with
  | .pump, [] => some .pump
  | .valve, [] => some (.valve .closed)
  | .valve, [v] => (Rest.ofHeld? v).map .valve
  | _, _ => none

/-- **Reads a load.** -/
def decoder : Decoder Load
  | depth + 1, .obj members =>
    let others := members.filter (fun m => m.1 ≠ some "type")
    match members.filter (fun m => m.1 = some "type") with
    | [(_, tag)] =>
      if holdableMembers depth others then
        Kind.ofJson? tag >>= fun kind => ofMembers? kind others
      else none
    | _ => none
  | depth + 1, .arr (tag :: items) =>
    if holdableItems depth items then
      Kind.ofJson? tag >>= fun kind => ofItems? kind items
    else none
  | _, _ => none

/-- A load as JSON. -/
def toJson : Load → Json
  | .pump => .record [("type", .text "pump")]
  | .valve rest => .record [("type", .text "valve"), ("mode", .text rest.key)]

end Load

/-- Reads a fitting. The name must be given; an output is in use and drives a
pump unless it says otherwise. -/
def Fitting.decoder : Decoder Fitting :=
  Decoder.record ["name", "kind", "enabled"] 1 fun depth fields => do
    let name ← fields.required "name" Decoder.text depth
    let load ← fields.withDefault "kind" .pump Load.decoder depth
    let enabled ← fields.withDefault "enabled" true Decoder.bool depth
    some ⟨name, load, enabled⟩

/-- A fitting as JSON. -/
def Fitting.toJson (f : Fitting) : Json :=
  .record [("name", .text f.name), ("kind", f.load.toJson), ("enabled", .bool f.enabled)]

/-- Reads a panel of exactly four fittings. -/
def Panel.decoder : Decoder Panel :=
  Decoder.record ["relays"] 1 fun depth fields =>
    fields.required "relays" (Decoder.list Fitting.decoder) depth >>= Panel.ofList?

/-- A panel as JSON. -/
def Panel.toJson (p : Panel) : Json :=
  .record [("relays", .ofList Fitting.toJson p.fittings.toList)]

end Switchboard
