import Switchboard.Board
import Switchboard.Dice
import Switchboard.Engine.Simulation
import Switchboard.Identifier
import Switchboard.Journal.Basic

/-!
# A rig for the engine

Surroundings made of a simulated board and a journal in memory. Both can be
made to fail: outputs of the board can refuse commands, chosen commands can be
answered with an error although the board carried them out, and the journal can
lose everything it is given.
-/

namespace Switchboard.Engine

/-- **A simulated board and a journal**, with the failures planned for them. -/
structure Rig where
  /-- The board. -/
  board : Board := .fresh
  /-- What the controller says about an output instead of the truth, by the
  number of the command. -/
  planned : List (Nat × (Relay → ActuatorFault)) := []
  /-- The journal. -/
  journal : Journal.Memory := .empty Journal.usualCapacity
  /-- Whether the journal loses what it is given. -/
  journalBroken : Bool := false
  /-- Where identifiers of journal entries come from. -/
  ids : IdSupply := ⟨0⟩
  /-- Where random lengths come from. -/
  dice : Dice := ⟨0⟩

namespace Rig

/-- Carries a command out, and answers as planned. -/
def switch (number : Nat) (output : Relay) (power : Power) (r : Rig) :
    Except ActuatorFault Unit × Rig :=
  let (truth, board) := r.board.command output power
  let r := { r with board }
  match r.planned.lookup number with
  | some fault => (.error (fault output), r)
  | none => (truth, r)

/-- Notes that an output was switched. -/
def record (clock : Nat) (output : Relay) (power : Power) (r : Rig) : Rig :=
  if r.journalBroken then r
  else
    let (id, ids) := r.ids.mint
    let time : Timestamp := ⟨clock / 1000, clock % 1000 * 1000000⟩
    { r with ids, journal := r.journal.append ⟨id, output, power, time⟩ }

/-- Draws a number between two bounds. -/
def draw (min max : Nat) (r : Rig) : Nat × Rig :=
  let (n, dice) := r.dice.roll min max
  (n, { r with dice })

/-- The surroundings that a rig makes. -/
def surroundings (panel : Panel) (tickPeriod latency : Nat) : Surroundings Rig :=
  { panel, tickPeriod, latency, switch, record, draw }

end Rig

end Switchboard.Engine
