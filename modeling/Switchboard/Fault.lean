import Switchboard.Program.Malformed

/-!
# What can go wrong while switching and storing

`ActuatorFault` is what a relay controller may answer to a command, and
`HubFault` what an operation on programs, runs or the journal may answer.
-/

namespace Switchboard

/-- **Why a command to the relay controller failed.** -/
inductive ActuatorFault where
  /-- The controller answered but refused. -/
  | rejected (relay : Relay)
  /-- The controller did not answer. -/
  | unreachable (reason : String)
  /-- The controller answered something that makes no sense. -/
  | protocol (reason : String)
deriving Repr, DecidableEq

/-- The fault in words. -/
def ActuatorFault.message : ActuatorFault → String
  | rejected r => "relay " ++ r.label ++ " rejected the command"
  | unreachable reason => "relay controller unreachable: " ++ reason
  | protocol reason => "unexpected relay controller response: " ++ reason

/-- **Why an operation failed.** -/
inductive HubFault where
  /-- A program breaks the rules. -/
  | malformed (fault : Malformed)
  /-- No program goes by a key. -/
  | notFound (key : String)
  /-- The relay controller failed. -/
  | actuator (fault : ActuatorFault)
  /-- The program must not be run. -/
  | disabled (id : ProgramId)
  /-- Nothing executes programs any more. -/
  | engineUnavailable
  /-- Something stored cannot be read, or cannot be written. -/
  | storage
deriving Repr, DecidableEq

/-- The fault in words. -/
def HubFault.message : HubFault → String
  | malformed m => "malformed program: " ++ m.message
  | notFound key => "Program not found: " ++ key
  | actuator f => "actuator failure: " ++ f.message
  | disabled id => "program " ++ id ++ " is disabled"
  | engineUnavailable => "execution engine is not running"
  | storage => "storage error"

end Switchboard
