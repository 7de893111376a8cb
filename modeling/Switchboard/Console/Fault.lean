import Switchboard.Config
import Switchboard.Database
import Switchboard.Text.Term

/-!
# Why a command fails

A command fails for a reason that some part of the system gave, or because the
run or the sweep that it was for did not go well. A fault can be told in words,
and it can be shown as a term, which names its cause and every detail.
-/

namespace Switchboard

open Text (Term)

/-! ## Faults as terms -/

/-- The term of a step's identifier. -/
def stepTerm (id : StepId) : String × Term := ("step_id", .applied "StepId" (.text id))

/-- The term of a fault of a program. -/
def Malformed.term : Malformed → Term
  | emptyName => .name "EmptyName"
  | missingSteps => .name "MissingSteps"
  | unknownStepType s v => .record "UnknownStepType" [stepTerm s, ("value", .text v)]
  | missingField s f => .record "MissingField" [stepTerm s, ("field", .text f.key)]
  | relayOutOfRange s v => .record "RelayOutOfRange" [stepTerm s, ("value", .number v)]
  | invalidAction s v => .record "InvalidAction" [stepTerm s, ("value", .text v)]
  | invalidDurationType s v => .record "InvalidDurationType" [stepTerm s, ("value", .text v)]
  | negativeDuration s f v =>
    .record "NegativeDuration" [stepTerm s, ("field", .text f.key), ("value", .number v)]
  | invertedRange s lo hi =>
    .record "InvertedRange" [stepTerm s, ("min", .number lo), ("max", .number hi)]
  | invalidIterations s v => .record "InvalidIterations" [stepTerm s, ("value", .number v)]
  | duplicateStepId s => .applied "DuplicateStepId" (stepTerm s).2
  | notADocument => .applied "Syntax" (.text "")

/-- The term of a fault of the controller. -/
def ActuatorFault.term : ActuatorFault → Term
  | rejected r => .record "Rejected" [("relay", .applied "RelayIndex" (.number r.val))]
  | unreachable reason => .record "Unreachable" [("reason", .text reason)]
  | protocol reason => .record "Protocol" [("reason", .text reason)]

/-- The term of a fault of an operation. -/
def HubFault.term : HubFault → Term
  | malformed m => .applied "MalformedProgram" m.term
  | notFound key =>
    .applied "NotFound" (.record "NotFoundError" [("entity", .text "Program"), ("id", .text key)])
  | actuator f => .applied "Actuator" f.term
  | disabled id => .applied "Disabled" (.applied "ProgramId" (.text id))
  | engineUnavailable => .name "EngineUnavailable"
  | storage => .name "Storage"

/-- The term of a fault of a file. -/
def File.Fault.term : File.Fault → Term
  | missing => .record "Os" [("code", .number 2), ("kind", .name "NotFound"),
      ("message", .text "No such file or directory")]
  | directory => .record "Os" [("code", .number 21), ("kind", .name "IsADirectory"),
      ("message", .text "Is a directory")]
  | binary => .record "Error" [("kind", .name "InvalidData"), ("message", .text binary.message)]

/-- The term of a fault of the configuration. -/
def Config.Fault.term : Config.Fault → Term
  | unparsable => .name "Parse"
  | unreadable f => .applied "Io" f.term
  | invalid reason => .applied "Validation" (.text reason)

/-- The term of a fault of the database. -/
def Database.Fault.term : Database.Fault → Term
  | badUrl reason => .applied "Database" (.applied "Configuration" (.text reason))
  | unopenable => .applied "Database" (engine 14 "unable to open database file")
  | foreign => .applied "Migration" (.applied "Execute" (engine 26 "file is not a database"))
where
  /-- What the database engine says. -/
  engine (code : Int) (message : String) : Term :=
    .applied "Database" (.record "SqliteError" [("code", .number code), ("message", .text message)])

/-! ## Faults of commands -/

namespace Console

/-- **Why a command failed.** -/
inductive Fault where
  /-- The configuration cannot be used. -/
  | config (f : Config.Fault)
  /-- The database cannot be used. -/
  | database (f : Database.Fault)
  /-- The file to be imported cannot be read. -/
  | file (f : File.Fault)
  /-- An operation failed. -/
  | hub (f : HubFault)
  /-- The controller failed. -/
  | actuator (f : ActuatorFault)
  /-- An output could not be switched, which ended the run. -/
  | runFailed (reason : String)
  /-- Another program runs. -/
  | busy
  /-- Some outputs did not confirm that they were switched off. -/
  | sweepFailed (failed attempted : Nat)
deriving Repr, DecidableEq

namespace Fault

/-- **The fault in words.** -/
def message : Fault → String
  | config f => f.message
  | database f => f.message
  | file f => f.message
  | hub f => f.message
  | actuator f => f.message
  | runFailed reason => reason
  | busy => "engine is already running a program"
  | sweepFailed failed attempted =>
    Nat.repr failed ++ " of " ++ Nat.repr attempted ++
      " relays did not acknowledge the off command"

/-- **The fault as a term.** -/
def term : Fault → Term
  | config f => f.term
  | database f => f.term
  | file f => f.term
  | hub f => f.term
  | actuator f => f.term
  | runFailed reason => .text (runFailed reason).message
  | busy => .text busy.message
  | sweepFailed failed attempted => .text (sweepFailed failed attempted).message

end Fault

end Console

end Switchboard
