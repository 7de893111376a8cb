import Switchboard.Engine.Cursor
import Switchboard.Engine.Event

/-!
# The engine

The engine carries out one program at a time. It is written here as a machine
that is in some `Phase` and takes one `Signal` after the other; `step` says
which signals a phase takes, what the engine does about each of them, in
order, and which phase it is in then. Nothing in it knows about time, queues
or the relay controller: those belong to whoever feeds it signals and carries
out its effects.

A run alternates between a step and the gap after it. A stop is taken during
an outstanding command, during a wait and in a gap; it ends the run at once,
lets an outstanding command come back, and then sends the four off commands.
When nobody is left to ask for anything, the engine does the same and ends.
-/

namespace Switchboard.Engine

/-- **Whom an answer is for.** -/
abbrev Ticket := Nat

/-- **What the engine can be asked for.** -/
inductive Request where
  /-- Run a program. -/
  | start (ticket : Ticket) (program : Program)
  /-- Cancel any run and switch every output off. -/
  | stop (ticket : Ticket)
deriving Repr, DecidableEq

/-- Whom the answer to a request is for. -/
def Request.ticket : Request → Ticket
  | start t _ => t
  | stop t => t

/-- **How switching every output off went.** -/
structure Sweep where
  /-- The outputs that were sent an off command, in order. -/
  attempted : List Relay
  /-- The outputs whose off command failed, in order. -/
  failures : List (Relay × ActuatorFault)
deriving Repr, DecidableEq, Inhabited

/-- A sweep that has not begun. -/
def Sweep.empty : Sweep := ⟨[], []⟩

/-- Notes how an off command went. -/
def Sweep.record (s : Sweep) (output : Relay) : Except ActuatorFault Unit → Sweep
  | .ok () => { s with attempted := s.attempted ++ [output] }
  | .error f => ⟨s.attempted ++ [output], s.failures ++ [(output, f)]⟩

/-- Whether every off command was confirmed. -/
def Sweep.isClean (s : Sweep) : Bool := s.failures.isEmpty

/-- **The answer to a request.** -/
inductive Reply where
  /-- The program runs. -/
  | started
  /-- Another program runs, and goes on running. -/
  | alreadyRunning
  /-- The program has no steps, so that there is nothing to run. -/
  | emptyProgram
  /-- Every output was sent an off command. -/
  | stopped (sweep : Sweep)
deriving Repr, DecidableEq

/-- **A program that is being run.** -/
structure Run where
  /-- The program. -/
  program : Program
  /-- The position in it. -/
  cursor : Cursor
deriving Repr, DecidableEq

/-- **What the engine is doing.** -/
inductive Phase where
  /-- Nothing. -/
  | idle
  /-- A random wait begins, whose length has yet to be drawn. -/
  | drawing (run : Run) (min max : Nat)
  /-- A command of a run is with the controller. -/
  | calling (run : Run) (output : Relay) (power : Power)
  /-- A wait is being counted down. -/
  | waiting (run : Run) (remaining : Nat)
  /-- A step of a run is complete and the next has not begun. -/
  | between (run : Run)
  /-- A run was stopped while its command is still with the controller. -/
  | landing (caller : Option Ticket)
  /-- An off command is with the controller, and others follow. -/
  | sweeping (current : Relay) (rest : List Relay) (sweep : Sweep) (caller : Option Ticket)
  /-- Nothing, and never again. -/
  | ended
deriving Repr, DecidableEq

/-- **What the engine takes notice of.** -/
inductive Signal where
  /-- A request reached it. -/
  | request (r : Request)
  /-- No request will ever reach it again. -/
  | abandoned
  /-- No request is there. -/
  | quiet
  /-- The controller answered the command. -/
  | answered (result : Except ActuatorFault Unit)
  /-- A second of a wait is over. -/
  | tick
  /-- The length of a random wait was drawn. -/
  | drawn (seconds : Nat)
deriving Repr

/-- **What the engine does.** -/
inductive Effect where
  /-- Shows a new status. -/
  | status (s : Status)
  /-- Publishes an event. -/
  | event (e : Event)
  /-- Answers a request. -/
  | answer (ticket : Ticket) (reply : Reply)
  /-- Sends a command to the controller. -/
  | command (output : Relay) (power : Power)
  /-- Notes in the journal that an output was switched. -/
  | record (output : Relay) (power : Power)
  /-- Begins to count seconds. -/
  | countdown
deriving Repr, DecidableEq

/-! ## Beginning a step -/

/-- Begins a wait. One of no length is over at once. -/
def Run.wait (run : Run) (seconds : Nat) : Phase × List Effect :=
  if seconds = 0 then (.between run, [])
  else (.waiting run seconds,
    [.status (.waiting run.program.id waitingWords seconds), .countdown])

/-- Begins to carry out a step. -/
def Run.carryOut (run : Run) : Dispatch → Phase × List Effect
  | .relay _ output power => (.calling run output power, [.command output power])
  | .wait _ (.fixed seconds) => run.wait seconds.toNat
  | .wait _ (.random min max) =>
    if min < max then (.drawing run min.toNat max.toNat, []) else run.wait min.toNat

/-- **Goes on with a run** from where its cursor stands. The given effects come
after the announcement of the step and before the step itself. -/
def Run.proceed (panel : Panel) (run : Run) (between : List Effect) : Phase × List Effect :=
  match run.cursor.resolve with
  | (none, _) => (.idle, between ++ [.status .idle, .event .finished])
  | (some d, cursor) =>
    let words := panel.words d
    let next := Run.carryOut { run with cursor } d
    (next.1, [.status (.running run.program.id words), .event (.stepAdvanced words)] ++
      between ++ next.2)

/-! ## Ending a run -/

/-- What is shown when a run is stopped. -/
def cancellation : List Effect := [.status .idle, .event .cancelled]

/-- Begins to switch every output off. -/
def sweep (caller : Option Ticket) : Phase × List Effect :=
  (.sweeping .first Relay.others .empty caller, [.command .first .off])

/-- Stops a run of which no command is with the controller. -/
def halt (caller : Option Ticket) : Phase × List Effect :=
  let next := sweep caller
  (next.1, cancellation ++ next.2)

/-- Goes on with a sweep after an off command was answered. -/
def sweepOn (current : Relay) (rest : List Relay) (s : Sweep) (caller : Option Ticket)
    (result : Except ActuatorFault Unit) : Phase × List Effect :=
  let s := s.record current result
  match rest, caller with
  | next :: rest, _ => (.sweeping next rest s caller, [.command next .off])
  | [], some ticket => (.idle, [.answer ticket (.stopped s)])
  | [], none => (.ended, [])

/-! ## The machine -/

/-- **What the engine does about a signal** in a phase; `none` when the phase
does not take the signal. -/
def step (panel : Panel) : Phase → Signal → Option (Phase × List Effect)
  | .idle, .request (.start t p) =>
    if p.steps.isEmpty then some (.idle, [.answer t .emptyProgram])
    else some (Run.proceed panel ⟨p, .start p.steps⟩ [.answer t .started])
  | .idle, .request (.stop t) => some (sweep (some t))
  | .idle, .abandoned => some (.ended, [])
  | .drawing run min max, .drawn n =>
    if min ≤ n ∧ n ≤ max then some (run.wait n) else none
  | .calling run output power, .answered (.ok ()) =>
    some (.between run, [.record output power])
  | .calling _ _ _, .answered (.error f) =>
    some (.idle, [.status .idle, .event (.error f.message)])
  | .calling run output power, .request (.start t _) =>
    some (.calling run output power, [.answer t .alreadyRunning])
  | .calling _ _ _, .request (.stop t) => some (.landing (some t), cancellation)
  | .calling _ _ _, .abandoned => some (.landing none, cancellation)
  | .waiting run n, .tick =>
    if n ≤ 1 then some (.between run, [.event (.tick 0)])
    else some (.waiting run (n - 1),
      [.status (.waiting run.program.id waitingWords (n - 1)), .event (.tick (n - 1))])
  | .waiting run n, .request (.start t _) =>
    some (.waiting run n, [.answer t .alreadyRunning])
  | .waiting _ _, .request (.stop t) => some (halt (some t))
  | .waiting _ _, .abandoned => some (halt none)
  | .between run, .request (.start t _) => some (.between run, [.answer t .alreadyRunning])
  | .between _, .request (.stop t) => some (halt (some t))
  | .between _, .abandoned => some (halt none)
  | .between run, .quiet =>
    some (Run.proceed panel { run with cursor := run.cursor.advance } [])
  | .landing caller, .answered _ => some (sweep caller)
  | .sweeping current rest s caller, .answered result =>
    some (sweepOn current rest s caller result)
  | _, _ => none

end Switchboard.Engine
