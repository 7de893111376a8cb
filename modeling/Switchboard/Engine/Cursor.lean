import Switchboard.Program.Expansion

/-!
# A position inside a program

A run goes through the steps of its program one after the other, and through
the body of a loop once for every iteration. Its position is a stack of
frames, innermost first: the outermost frame goes through the steps of the
program, and every other frame through the body of the loop at which the frame
below it stands.

`Cursor.resolve` moves a cursor to the next step that is carried out, and
`Cursor.advance` past it. Alternating the two yields the steps of
`Step.expandAll`, one by one, where the counts of the program fit.

Loops whose count is zero are stepped over and never entered. That is why
resolving takes a number of passes that depends on the length of the program
alone, however often its loops run. It is also why counts have to fit: one that
begins again at zero hides a loop that would have carried something out.
-/

namespace Switchboard

/-- **What a frame goes through.** -/
inductive Frame.Kind where
  /-- The steps of the program. -/
  | program
  /-- The body of a loop, of whose iterations some are complete. -/
  | loop (iterations completed : Nat)
deriving Repr, DecidableEq

/-- **A list of steps that is being gone through.** -/
structure Frame where
  /-- The steps. -/
  steps : List Step
  /-- The number of steps that lie behind. -/
  index : Nat
  /-- What the steps belong to. -/
  kind : Frame.Kind
deriving Repr, DecidableEq

/-- **A position inside a program**: its frames, innermost first. There are
none once the program is complete. -/
structure Cursor where
  /-- The frames. -/
  frames : List Frame
deriving Repr, DecidableEq

namespace Cursor

/-- The position before the first of some steps. -/
def start (steps : List Step) : Cursor := ⟨[⟨steps, 0, .program⟩]⟩

/-- How many lists of steps lie inside one another here; 0 once complete. -/
def depth (c : Cursor) : Nat := c.frames.length

/-- **Moves past the step** at which the cursor stands. -/
def advance : Cursor → Cursor
  | ⟨[]⟩ => ⟨[]⟩
  | ⟨f :: below⟩ => ⟨{ f with index := f.index + 1 } :: below⟩

/-- **What one look at the innermost frame shows.** -/
inductive Pass where
  /-- The cursor stands at a step that is carried out. -/
  | at (dispatch : Dispatch)
  /-- Nothing is left. -/
  | complete
  /-- The cursor has to move here first. -/
  | moved (cursor : Cursor)
deriving Repr

/-- Looks at the innermost frame once. -/
def pass : Cursor → Pass
  | ⟨[]⟩ => .complete
  | ⟨f :: below⟩ =>
    match f.steps[f.index]? with
    | none =>
      match f.kind with
      | .program => .complete
      | .loop iterations completed =>
        if completed + 1 ≥ iterations then .moved (advance ⟨below⟩)
        else .moved ⟨{ f with index := 0, kind := .loop iterations (completed + 1) } :: below⟩
    | some (.relay id output power) => .at (.relay id output power)
    | some (.wait id span) => .at (.wait id span)
    | some (.loop id n body) =>
      if (Step.loop id n body).dispatchCount = 0 then
        .moved ⟨{ f with index := f.index + 1 } :: below⟩
      else .moved ⟨⟨body, 0, .loop n.toNat 0⟩ :: f :: below⟩

/-- Looks and moves at most a number of times. -/
def search : Nat → Cursor → Option Dispatch × Cursor
  | 0, c => (none, c)
  | passes + 1, c =>
    match c.pass with
    | .at d => (some d, c)
    | .complete => (none, ⟨[]⟩)
    | .moved next => search passes next

mutual

/-- The number of steps in a step, itself included. -/
def sizeOfStep : Step → Nat
  | .relay .. => 1
  | .wait .. => 1
  | .loop _ _ body => sizeOfSteps body + 1

/-- The number of steps in a list, at all depths. -/
def sizeOfSteps : List Step → Nat
  | [] => 0
  | s :: rest => sizeOfStep s + sizeOfSteps rest

end

/-- The number of steps of the program that a cursor goes through. -/
def size (c : Cursor) : Nat :=
  match c.frames.getLast? with
  | some f => sizeOfSteps f.steps
  | none => 0

/-- The number of passes within which a search comes to its end. -/
def budget (c : Cursor) : Nat := 2 * c.size + 2

/-- **Moves to the next step that is carried out**, and tells which it is; the
cursor stays there when asked again. `none` means that the program is
complete. -/
def resolve (c : Cursor) : Option Dispatch × Cursor := search c.budget c

end Cursor

end Switchboard
