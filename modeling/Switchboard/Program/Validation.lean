import Switchboard.Program.Malformed
import Switchboard.Text.Blank

/-!
# Valid programs

A program is valid when its name has a visible character, no two steps at any
depth share an identifier, every random wait has its bounds in order and every
loop runs at least once. `Program.validate` reports the first fault: the name
before the steps, the steps depth first, and at one step a repeated identifier
before anything else.
-/

namespace Switchboard

/-- What is wrong with a step by itself. -/
def Step.fault? : Step → Option Malformed
  | .wait id (.random lo hi) =>
    if hi < lo then some (.invertedRange id lo.toNat hi.toNat) else none
  | .loop id n _ => if n = 0 then some (.invalidIterations id 0) else none
  | _ => none

/-- **The first fault among steps in order**, given the identifiers seen before
them. -/
def Step.firstFault? (seen : List StepId) : List Step → Option Malformed
  | [] => none
  | s :: rest =>
    if s.id ∈ seen then some (.duplicateStepId s.id)
    else match s.fault? with
      | some fault => some fault
      | none => firstFault? (s.id :: seen) rest

namespace Program

/-- **The first fault of a program**, or its approval. -/
def validate (p : Program) : Except Malformed Unit :=
  if Text.isAllBlank p.name then .error .emptyName
  else match Step.firstFault? [] p.walk with
    | some fault => .error fault
    | none => .ok ()

/-- **What it means for a program to be valid.** -/
structure Valid (p : Program) : Prop where
  /-- The name has a character that is not blank. -/
  name_visible : ∃ c ∈ p.name.toList, Text.isBlank c = false
  /-- No identifier is used twice. -/
  ids_nodup : (p.walk.map Step.id).Nodup
  /-- No step breaks the rules of its own kind. -/
  steps_sound : ∀ s ∈ p.walk, s.fault? = none

end Program

end Switchboard
