import Switchboard.Program.Basic
import Switchboard.Saturating

/-!
# What a complete run does

A complete run of a program dispatches its relay and wait steps one after the
other, going through the body of a loop as often as the loop says. `expand`
writes that sequence out; it is what a run is measured against, and far too
long to be computed for large loops.

`dispatchCount` and `durationBounds` summarise it without writing it out: how
many dispatches there are, and how long the waits take at least and at most,
each in 64 bits. What does not fit is cut down to the greatest number, with one
exception: the counts of steps that follow one another are added as 64 bits add,
and begin at zero again. Such a count is that of another run. `CountsFit` tells
the programs to which this does not happen.
-/

namespace Switchboard

/-- **A step as it is carried out.** Loops are not carried out themselves. -/
inductive Dispatch where
  /-- An output is switched. -/
  | relay (id : StepId) (output : Relay) (power : Power)
  /-- Time passes. -/
  | wait (id : StepId) (span : Span)
deriving Repr, DecidableEq, Inhabited

/-- The identifier of the step carried out. -/
def Dispatch.id : Dispatch → StepId
  | relay id _ _ => id
  | wait id _ => id

/-- Shortest and longest duration of a wait. -/
def Span.bounds : Span → Nat × Nat
  | .fixed s => (s.toNat, s.toNat)
  | .random lo hi => (lo.toNat, hi.toNat)

namespace Step

mutual

/-- **The dispatches of a step**, in order, with every loop written out. -/
def expand : Step → List Dispatch
  | relay id o p => [.relay id o p]
  | wait id s => [.wait id s]
  | loop _ n body => (List.replicate n.toNat (expandAll body)).flatten

/-- The dispatches of a list of steps. -/
def expandAll : List Step → List Dispatch
  | [] => []
  | s :: rest => expand s ++ expandAll rest

end

mutual

/-- **The number of dispatches of a step**, in 64 bits. The iterations of a loop are multiplied with
what its body comes to, and the product is cut down. -/
def dispatchCount : Step → Nat
  | relay .. => 1
  | wait .. => 1
  | loop _ n body => Saturating.mul (dispatchCountAll body) n.toNat

/-- The number of dispatches of a list of steps, in 64 bits. The sum is not cut down. -/
def dispatchCountAll : List Step → Nat
  | [] => 0
  | s :: rest => Size.wrap64 (dispatchCount s + dispatchCountAll rest)

end

/-- The counts of the steps in a list, added up however much they come to. -/
def countSum : List Step → Nat
  | [] => 0
  | s :: rest => dispatchCount s + countSum rest

/-- **The lists of steps in a list**: itself, and the body of each loop in it. -/
def lists (ss : List Step) : List (List Step) := ss :: (walkAll ss).filterMap body?

/-- **The counts of a list of steps fit into 64 bits**: those of its own steps together, and those
of the steps in each body together. -/
def CountsFit (ss : List Step) : Prop :=
  ∀ body ∈ lists ss, countSum body ≤ Size.greatest64

instance (ss : List Step) : Decidable (CountsFit ss) :=
  inferInstanceAs (Decidable (∀ body ∈ lists ss, countSum body ≤ Size.greatest64))

mutual

/-- **The shortest and the longest time that a step waits in total**, each cut
down to 64 bits. -/
def durationBounds : Step → Nat × Nat
  | relay .. => (0, 0)
  | wait _ s => s.bounds
  | loop _ n body =>
    let sum := durationBoundsAll body
    (Saturating.mul sum.1 n.toNat, Saturating.mul sum.2 n.toNat)

/-- The shortest and the longest time that a list of steps waits in total. -/
def durationBoundsAll : List Step → Nat × Nat
  | [] => (0, 0)
  | s :: rest =>
    let first := durationBounds s
    let sum := durationBoundsAll rest
    (Saturating.add first.1 sum.1, Saturating.add first.2 sum.2)

end

/-- The seconds waited by dispatches at least and at most. -/
def waited : List Dispatch → Nat × Nat
  | [] => (0, 0)
  | .relay .. :: rest => waited rest
  | .wait _ s :: rest => (s.bounds.1 + (waited rest).1, s.bounds.2 + (waited rest).2)

end Step

namespace Program

/-- **The dispatches of a complete run**, in order. -/
def expand (p : Program) : List Dispatch := Step.expandAll p.steps

/-- The number of dispatches of a complete run, in 64 bits. -/
def dispatchCount (p : Program) : Nat := Step.dispatchCountAll p.steps

/-- **The counts of a program fit into 64 bits.** -/
def CountsFit (p : Program) : Prop := Step.CountsFit p.steps

instance (p : Program) : Decidable p.CountsFit :=
  inferInstanceAs (Decidable (Step.CountsFit p.steps))

/-- The shortest and the longest time that a complete run waits. -/
def durationBounds (p : Program) : Nat × Nat := Step.durationBoundsAll p.steps

end Program

end Switchboard
