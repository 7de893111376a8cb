import Switchboard.Fault

/-!
# The simulated board

A board of four outputs that exists in memory only. It keeps the state of
every output and every command it received, and an output can be made to
refuse commands.
-/

namespace Switchboard

/-- **A simulated board.** -/
structure Board where
  /-- The state of each output. -/
  outputs : PerRelay Power
  /-- Whether each output refuses commands. -/
  faulty : PerRelay Bool
  /-- The commands received, newest first. -/
  commands : List (Relay × Power)
deriving Repr, DecidableEq

namespace Board

/-- A board that was just switched on: everything off and in order. -/
def fresh : Board := ⟨.same .off, .same false, []⟩

/-- The state of an output. -/
def power (b : Board) (output : Relay) : Power := b.outputs.of output

/-- Makes an output refuse commands, or accept them again. -/
def setFaulty (b : Board) (output : Relay) (faulty : Bool) : Board :=
  { b with faulty := b.faulty.put output faulty }

/-- **Carries a command out.** An output that refuses keeps its state. -/
def command (b : Board) (output : Relay) (power : Power) : Except ActuatorFault Unit × Board :=
  let b := { b with commands := (output, power) :: b.commands }
  if b.faulty.of output then (.error (.rejected output), b)
  else (.ok (), { b with outputs := b.outputs.put output power })

end Board

end Switchboard
