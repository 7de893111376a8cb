import Switchboard.Board
import Switchboard.Engine.Machine

/-!
# Actuators

An actuator is whatever switches the outputs and tells their state: the relay
controller, or a simulated board. Switching everything off is done the same way
by all of them, with one command for each output, in board order. A command that
fails does not keep the others from being sent.
-/

namespace Switchboard

/-- **An actuator**, with a state of its own. Every failure is final. -/
structure Actuator (σ : Type) where
  /-- Switches an output. -/
  set : Relay → Power → σ → Except ActuatorFault Unit × σ
  /-- Tells the state of the outputs. -/
  read : σ → Except ActuatorFault (PerRelay Power) × σ

namespace Actuator

variable {σ : Type} (a : Actuator σ)

/-- Switches outputs off, one after the other, whatever comes back. -/
def sweepFrom : List Relay → Engine.Sweep → σ → Engine.Sweep × σ
  | [], report, x => (report, x)
  | r :: rest, report, x =>
    let (result, x) := a.set r .off x
    sweepFrom rest (report.record r result) x

/-- **Switches every output off.** -/
def sweep (x : σ) : Engine.Sweep × σ := a.sweepFrom Relay.all .empty x

end Actuator

/-- A simulated board as an actuator. Its state can always be told. -/
def Board.actuator : Actuator Board where
  set output power b := b.command output power
  read b := (.ok b.outputs, b)

end Switchboard
