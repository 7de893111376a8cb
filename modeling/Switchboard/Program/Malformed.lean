import Switchboard.Program.Basic

/-!
# What can be wrong with a program

Each fault names the step and the field it was found at, so that the author
can be pointed to the place.
-/

namespace Switchboard

/-- **The fields of a program document** that a fault can point to. -/
inductive Field where
  /-- The identifier of a step. -/
  | id
  /-- The name of a program. -/
  | name
  /-- The steps of a program. -/
  | steps
  /-- The type of a step. -/
  | type
  /-- The output of a relay step. -/
  | relay
  /-- The state a relay step switches to. -/
  | action
  /-- Whether a wait is fixed or random. -/
  | durationType
  /-- The length of a fixed wait. -/
  | duration
  /-- The shortest length of a random wait. -/
  | durationMin
  /-- The longest length of a random wait. -/
  | durationMax
  /-- How often a loop runs. -/
  | iterations
  /-- The body of a loop. -/
  | loopSteps
deriving Repr, DecidableEq

/-- The name of a field in a document. -/
def Field.key : Field → String
  | .id => "id"
  | .name => "name"
  | .steps => "steps"
  | .type => "type"
  | .relay => "relay"
  | .action => "action"
  | .durationType => "durationType"
  | .duration => "duration"
  | .durationMin => "durationMin"
  | .durationMax => "durationMax"
  | .iterations => "iterations"
  | .loopSteps => "loopSteps"

/-- **A fault of a program or of its document.** -/
inductive Malformed where
  /-- The name has no visible character. -/
  | emptyName
  /-- The document has no steps. -/
  | missingSteps
  /-- The type of a step is none of the known ones. -/
  | unknownStepType (step : StepId) (value : String)
  /-- A field that the type of the step calls for is missing. -/
  | missingField (step : StepId) (field : Field)
  /-- The number of an output is not one of the four. -/
  | relayOutOfRange (step : StepId) (value : Int)
  /-- The state to switch to is neither on nor off. -/
  | invalidAction (step : StepId) (value : String)
  /-- A wait is neither fixed nor random. -/
  | invalidDurationType (step : StepId) (value : String)
  /-- A duration is negative. -/
  | negativeDuration (step : StepId) (field : Field) (value : Int)
  /-- The shortest length of a random wait exceeds the longest. -/
  | invertedRange (step : StepId) (min max : Nat)
  /-- The iterations of a loop are not a positive number of 32 bits. -/
  | invalidIterations (step : StepId) (value : Int)
  /-- Two steps have the same identifier. -/
  | duplicateStepId (step : StepId)
  /-- The text is no program document at all. -/
  | notADocument
deriving Repr, DecidableEq

namespace Malformed

/-- The field at fault, if the fault is about one. -/
def field? : Malformed → Option Field
  | emptyName => some .name
  | missingSteps => some .steps
  | unknownStepType .. => some .type
  | missingField _ f => some f
  | relayOutOfRange .. => some .relay
  | invalidAction .. => some .action
  | invalidDurationType .. => some .durationType
  | negativeDuration _ f _ => some f
  | invertedRange .. => some .durationMin
  | invalidIterations .. => some .iterations
  | duplicateStepId _ => some .id
  | notADocument => none

/-- The words for a fault at a step. -/
def atStep (step : StepId) (what : String) : String := "step `" ++ step ++ "`: " ++ what

/-- **A fault in words.** -/
def message : Malformed → String
  | emptyName => "program name must not be empty"
  | missingSteps => "program document has no `steps` array"
  | unknownStepType s v => atStep s ("unknown step type `" ++ v ++ "`")
  | missingField s f => atStep s ("field `" ++ f.key ++ "` is required")
  | relayOutOfRange s v =>
    atStep s ("field `relay` must be between 0 and 3, got " ++ toString v)
  | invalidAction s v =>
    atStep s ("field `action` must be \"ON\" or \"OFF\", got `" ++ v ++ "`")
  | invalidDurationType s v =>
    atStep s ("field `durationType` must be \"fixed\" or \"random\", got `" ++ v ++ "`")
  | negativeDuration s f v =>
    atStep s ("field `" ++ f.key ++ "` must be non-negative, got " ++ toString v)
  | invertedRange s lo hi =>
    atStep s ("`durationMin` (" ++ Nat.repr lo ++ ") must not exceed `durationMax` (" ++
      Nat.repr hi ++ ")")
  | invalidIterations s v =>
    atStep s ("field `iterations` must be at least 1, got " ++ toString v)
  | duplicateStepId s => "step id `" ++ s ++ "` is used more than once"
  | notADocument => "program document is not valid JSON"

end Malformed

end Switchboard
