import Switchboard.Fault
import Switchboard.Json.Basic
import Switchboard.Program.Expansion
import Switchboard.Relay.Panel

/-!
# What a run shows of itself

A run announces what happens in it by events, and how it stands by a status
that is replaced each time. The words for a step come from the labels on the
panel.
-/

namespace Switchboard

/-- The words for a step that waits. -/
def waitingWords : String := "waiting"

/-- **What a dispatch does, in words.** -/
def Panel.words (panel : Panel) : Dispatch → String
  | .relay _ output power => panel.describe output power
  | .wait .. => waitingWords

namespace Engine

/-- **Something that happened in a run.** -/
inductive Event where
  /-- A step begins. -/
  | stepAdvanced (words : String)
  /-- A second of a wait is over. -/
  | tick (remaining : Nat)
  /-- The program is complete. -/
  | finished
  /-- An output could not be switched, which ended the run. -/
  | error (reason : String)
  /-- The run was stopped. -/
  | cancelled
deriving Repr, DecidableEq

/-- Whether an event is the last one of its run. -/
def Event.isTerminal : Event → Bool
  | stepAdvanced _ => false
  | tick _ => false
  | finished => true
  | error _ => true
  | cancelled => true

/-- **How things stand.** -/
inductive Status where
  /-- Nothing runs. -/
  | idle
  /-- A step is being carried out. -/
  | running (program : ProgramId) (action : String)
  /-- A wait is being counted down. -/
  | waiting (program : ProgramId) (action : String) (remaining : Nat)
deriving Repr, DecidableEq, Inhabited

/-- The name of a status without its details. -/
def Status.label : Status → String
  | idle => "idle"
  | running .. => "running"
  | waiting .. => "waiting"

/-- Whether nothing runs. -/
def Status.isIdle : Status → Bool
  | idle => true
  | _ => false

/-! ## As JSON -/

/-- An event as JSON. -/
def Event.toJson : Event → Json
  | stepAdvanced words => .record [("type", .text "step_advanced"), ("description", .text words)]
  | tick n => .record [("type", .text "tick"), ("remaining", .nat n)]
  | finished => .record [("type", .text "finished")]
  | error reason => .record [("type", .text "error"), ("reason", .text reason)]
  | cancelled => .record [("type", .text "cancelled")]

/-- A status as JSON. -/
def Status.toJson (s : Status) : Json :=
  match s with
  | idle => .record [("state", .text s.label)]
  | running id action =>
    .record [("state", .text s.label), ("program_id", .text id), ("current_action", .text action)]
  | waiting id action n =>
    .record [("state", .text s.label), ("program_id", .text id), ("current_action", .text action),
      ("remaining_secs", .nat n)]

end Engine

end Switchboard
