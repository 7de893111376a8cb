import Switchboard.Relay.Basic

/-!
# Programs

A program is a named list of steps. A step switches an output, waits, or
repeats a list of steps a number of times. Steps carry identifiers that the
author chose or that were minted on import; within a valid program they are
distinct at all depths (`Program.validate`).

`Step.walk` visits a step and everything inside it, outer before inner and
earlier before later.
-/

namespace Switchboard

/-- The identifier of a program. -/
abbrev ProgramId := String

/-- The identifier of a step. -/
abbrev StepId := String

/-- **How long a wait lasts**, in whole seconds. -/
inductive Span where
  /-- Always the same. -/
  | fixed (seconds : UInt64)
  /-- Drawn anew each time the step begins, both ends included. -/
  | random (min max : UInt64)
deriving Repr, DecidableEq, Inhabited

/-- **A step of a program.** -/
inductive Step where
  /-- Switches an output. -/
  | relay (id : StepId) (output : Relay) (power : Power)
  /-- Lets time pass. -/
  | wait (id : StepId) (span : Span)
  /-- Runs the body a number of times in a row. -/
  | loop (id : StepId) (iterations : UInt32) (body : List Step)
deriving Repr, Inhabited

namespace Step

/-- The identifier of a step. -/
def id : Step → StepId
  | relay id _ _ => id
  | wait id _ => id
  | loop id _ _ => id

/-- The steps inside a step, if it is a loop. -/
def body? : Step → Option (List Step)
  | loop _ _ body => some body
  | _ => none

mutual

/-- Whether two steps are the same. -/
def decEq : (a b : Step) → Decidable (a = b)
  | relay i o p, relay i' o' p' =>
    if h : i = i' ∧ o = o' ∧ p = p' then
      isTrue (by obtain ⟨rfl, rfl, rfl⟩ := h; rfl)
    else isFalse (fun e => h (by cases e; exact ⟨rfl, rfl, rfl⟩))
  | wait i s, wait i' s' =>
    if h : i = i' ∧ s = s' then isTrue (by obtain ⟨rfl, rfl⟩ := h; rfl)
    else isFalse (fun e => h (by cases e; exact ⟨rfl, rfl⟩))
  | loop i n body, loop i' n' body' =>
    match decEqList body body' with
    | isTrue hb =>
      if h : i = i' ∧ n = n' then isTrue (by obtain ⟨rfl, rfl⟩ := h; rw [hb])
      else isFalse (fun e => h (by cases e; exact ⟨rfl, rfl⟩))
    | isFalse hb => isFalse (fun e => hb (by cases e; rfl))
  | relay .., wait .. => isFalse nofun
  | relay .., loop .. => isFalse nofun
  | wait .., relay .. => isFalse nofun
  | wait .., loop .. => isFalse nofun
  | loop .., relay .. => isFalse nofun
  | loop .., wait .. => isFalse nofun

/-- Whether two lists of steps are the same. -/
def decEqList : (as bs : List Step) → Decidable (as = bs)
  | [], [] => isTrue rfl
  | a :: as, b :: bs =>
    match decEq a b, decEqList as bs with
    | isTrue h, isTrue hs => isTrue (by rw [h, hs])
    | isFalse h, _ => isFalse (fun e => h (by cases e; rfl))
    | _, isFalse hs => isFalse (fun e => hs (by cases e; rfl))
  | [], _ :: _ => isFalse nofun
  | _ :: _, [] => isFalse nofun

end

instance : DecidableEq Step := decEq

mutual

/-- **A step and every step inside it**, depth first. -/
def walk : Step → List Step
  | relay id o p => [relay id o p]
  | wait id s => [wait id s]
  | loop id n body => loop id n body :: walkAll body

/-- The steps of a list and every step inside them, depth first. -/
def walkAll : List Step → List Step
  | [] => []
  | s :: rest => walk s ++ walkAll rest

end

mutual

/-- **The number of loops that lie inside one another** in a step. -/
def nesting : Step → Nat
  | relay .. => 0
  | wait .. => 0
  | loop _ _ body => nestingAll body + 1

/-- The number of loops that lie inside one another in a list of steps. -/
def nestingAll : List Step → Nat
  | [] => 0
  | s :: rest => max (nesting s) (nestingAll rest)

end

end Step

/-- **A program**: a named list of steps. -/
structure Program where
  /-- The identifier. -/
  id : ProgramId
  /-- The name shown to the user; names may repeat. -/
  name : String
  /-- Whether the program may be run. -/
  enabled : Bool
  /-- The steps, in order. -/
  steps : List Step
deriving Repr, DecidableEq, Inhabited

/-- Every step of a program, depth first. -/
def Program.walk (p : Program) : List Step := Step.walkAll p.steps

/-- The number of loops that lie inside one another in a program. -/
def Program.nesting (p : Program) : Nat := Step.nestingAll p.steps

end Switchboard
