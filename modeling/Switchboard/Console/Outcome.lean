import Switchboard.Console.Fault
import Switchboard.Console.Line
import Switchboard.Console.Watch

/-!
# What commands come to

A command prints lines, and it may fail. This module says in which words a
program, an entry of the journal, an output and the end of a run are put, and
which ends of a run count as failures: an output that could not be switched
during the run, or not switched off after it.
-/

namespace Switchboard.Console

open Engine (Sweep)

/-- **What a command came to.** -/
structure Outcome where
  /-- What it printed. -/
  lines : List Line
  /-- Why it failed, if it did. -/
  fault : Option Fault := none
deriving Repr

namespace Outcome

/-- A command that failed before it printed anything. -/
def failed (f : Fault) : Outcome := ⟨[], some f⟩

/-- A command that only prints an answer. -/
def answer (lines : List String) : Outcome := ⟨lines.map (Line.out 0), none⟩

/-- What a command came to that prints something or else fails. -/
def ofExcept (r : Except Fault (List String)) : Outcome :=
  match r with
  | .ok lines => answer lines
  | .error f => failed f

/-- What was printed to a stream. -/
def printed (o : Outcome) (stream : Stream) : String := Line.printed stream o.lines

end Outcome

/-! ## Words -/

/-- **A program in a few words.** -/
def summary (p : Program) : String :=
  let (least, most) := p.durationBounds
  let waiting :=
    if least = most then Nat.repr least ++ "s"
    else Nat.repr least ++ "s to " ++ Nat.repr most ++ "s"
  p.id ++ " \"" ++ p.name ++ "\" (" ++ Nat.repr p.dispatchCount ++ " dispatches, " ++
    waiting ++ " of waiting)"

/-- The line that lists a program. -/
def listing (p : Program) : String :=
  p.id ++ "  " ++ Text.padRight 8 (if p.enabled then "enabled" else "disabled") ++ "  " ++ p.name

/-- The line for an entry of the journal. -/
def activity (panel : Panel) (e : Journal.Entry) : String :=
  e.time.plainText ++ "  " ++ panel.describe e.output e.power ++ " (" ++ e.power.label ++ ")"

/-- The line for the state of an output. -/
def outputLine (panel : Panel) (r : Relay) (power : Power) : String :=
  let fitting := panel.fitting r
  r.label ++ "  " ++ Text.padRight 20 fitting.name ++ "  " ++ power.label ++
    if fitting.enabled then "" else "  (disabled)"

/-- **How a sweep is reported**, and whether it was good enough. -/
def sweepOutcome (panel : Panel) (instant : Nat) (s : Sweep) : Outcome :=
  if s.isClean then ⟨[.out instant "all relays off"], none⟩
  else
    ⟨s.failures.map fun (r, f) =>
        .err instant ((panel.fitting r).name ++ " did not switch off: " ++ f.message),
      some (.sweepFailed s.failures.length s.attempted.length)⟩

/-- **How the end of a run is reported**, and whether it was good enough. -/
def RunEnd.outcome (panel : Panel) (instant : Nat) : RunEnd → Outcome
  | finished => ⟨[], none⟩
  | cancelled => ⟨[], none⟩
  | failed reason => ⟨[], some (.runFailed reason)⟩
  | stopped sweep => sweepOutcome panel instant sweep

end Switchboard.Console
