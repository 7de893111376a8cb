import Switchboard.Engine.Machine

/-!
# The engine in its surroundings

Here the machine of `Engine.Machine` is given what it needs to run: a clock, a
controller, a journal and callers. Time is counted in milliseconds and stands
still while anything is left to do; a command is answered and a second of a
wait is over at exactly the instant they are due.

Callers hand their requests to a queue of limited length. Those that find it
full wait in line for room, and move up whenever the engine pauses. A caller
holds on to the engine until its request has been answered and the engine has
paused; once nobody holds on to it any more, the engine is abandoned.

What the controller, the journal and the dice do is up to the `Surroundings`,
which keep a state of their own.
-/

namespace Switchboard.Engine

/-- **What surrounds the engine**, with a state of type `σ`. -/
structure Surroundings (σ : Type) where
  /-- The labels of the outputs. -/
  panel : Panel
  /-- The length of a counted second, in milliseconds. -/
  tickPeriod : Nat
  /-- How long the controller takes to carry a command out, in milliseconds. -/
  latency : Nat
  /-- Carries a command out; the first argument counts commands from 1. -/
  switch : Nat → Relay → Power → σ → Except ActuatorFault Unit × σ
  /-- Notes at an instant that an output was switched. -/
  record : Nat → Relay → Power → σ → σ
  /-- Draws a number between two bounds. -/
  draw : Nat → Nat → σ → Nat × σ

/-- **A command on its way.** -/
structure Call where
  /-- Its number. -/
  number : Nat
  /-- The output it is for. -/
  output : Relay
  /-- What it switches to. -/
  power : Power
  /-- When it takes effect. -/
  due : Nat
deriving Repr, DecidableEq

/-- **The engine at an instant**, with everything it depends on. -/
structure Simulation (σ : Type) where
  /-- The state of the surroundings. -/
  world : σ
  /-- The time. -/
  clock : Nat := 0
  /-- What the engine is doing. -/
  phase : Phase := .idle
  /-- The status shown last. -/
  status : Status := .idle
  /-- How many commands were sent so far. -/
  calls : Nat := 0
  /-- The command of the engine that is on its way. -/
  call : Option Call := none
  /-- When the next second of a wait is over. -/
  timer : Option Nat := none
  /-- The requests that the engine has yet to take, oldest first. -/
  queue : List Request := []
  /-- The requests for which the queue had no room, oldest first. -/
  line : List Request := []
  /-- Whether someone other than a pending caller holds on to the engine. -/
  held : Bool := true
  /-- Whether an answered caller still holds on to the engine. -/
  lingering : Bool := false
  /-- What the engine did and when, newest first. -/
  trace : List (Nat × Effect) := []

namespace Simulation

variable {σ : Type}

/-- How many requests the queue has room for. -/
def queueLength : Nat := 16

/-- Hands in a request. -/
def submit (x : Simulation σ) (r : Request) : Simulation σ :=
  if x.line.isEmpty ∧ x.queue.length < queueLength then { x with queue := x.queue ++ [r] }
  else { x with line := x.line ++ [r] }

/-- **Hands in a request**, unless the engine has ended. -/
def request (x : Simulation σ) (r : Request) : Except HubFault (Simulation σ) :=
  if x.phase matches .ended then .error .engineUnavailable else .ok (x.submit r)

/-- Lets go of the engine. -/
def release (x : Simulation σ) : Simulation σ := { x with held := false }

/-- Whether a request is still to be taken. -/
def isPending (x : Simulation σ) : Bool := !x.queue.isEmpty || !x.line.isEmpty

/-- Whether nobody holds on to the engine. -/
def isAbandoned (x : Simulation σ) : Bool := !x.held && !x.isPending && !x.lingering

/-- Whether the engine has ended and nobody holds on to it. -/
def isClosed (x : Simulation σ) : Bool :=
  !x.held && !x.isPending && (x.phase matches .ended)

/-- **The engine pauses**: answered callers let go, and those in line move up. -/
def pause (x : Simulation σ) : Simulation σ :=
  let room := queueLength - x.queue.length
  { x with
    lingering := false
    queue := x.queue ++ x.line.take room
    line := x.line.drop room }

/-- Whether a pause would change anything. -/
def isRestless (x : Simulation σ) : Bool :=
  x.lingering || (!x.line.isEmpty && x.queue.length < queueLength)

/-- Carries out an effect. -/
def perform (s : Surroundings σ) (x : Simulation σ) (e : Effect) : Simulation σ :=
  let x := { x with trace := (x.clock, e) :: x.trace }
  match e with
  | .status status => { x with status }
  | .event _ => x
  | .answer .. => { x with lingering := true }
  | .command output power =>
    { x with
      calls := x.calls + 1
      call := some ⟨x.calls + 1, output, power, x.clock + s.latency⟩ }
  | .record output power => { x with world := s.record x.clock output power x.world }
  | .countdown => { x with timer := some (x.clock + s.tickPeriod) }

/-- Whether the engine pauses on its way from one phase to another. It does
whenever a step is complete, so that others get their turn even during a run
that never waits. -/
def pausesAt (before : Phase) (signal : Signal) (after : Phase) : Bool :=
  match before, signal, after with
  | .between _, .request _, _ => false
  | _, _, .between _ => true
  | _, _, _ => false

/-- **Gives the engine a signal.** -/
def feed (s : Surroundings σ) (x : Simulation σ) (signal : Signal) : Option (Simulation σ) :=
  match step s.panel x.phase signal with
  | none => none
  | some (phase, effects) =>
    let y := effects.foldl (perform s) { x with phase }
    let y := { y with timer := if phase matches .waiting .. then y.timer else none }
    some (if pausesAt x.phase signal phase then y.pause else y)

/-- The command on its way takes effect, if it is due. -/
def land? (s : Surroundings σ) (x : Simulation σ) : Option (Simulation σ) :=
  match x.call with
  | some c =>
    if c.due ≤ x.clock then
      let (result, world) := s.switch c.number c.output c.power x.world
      feed s { x with world, call := none } (.answered result)
    else none
  | none => none

/-- A second of a wait is over, if it is due. -/
def ring? (s : Surroundings σ) (x : Simulation σ) : Option (Simulation σ) :=
  match x.timer with
  | some due =>
    if due ≤ x.clock then feed s { x with timer := some (due + s.tickPeriod) } .tick
    else none
  | none => none

/-- The engine takes the oldest request in the queue. -/
def take? (s : Surroundings σ) (x : Simulation σ) : Option (Simulation σ) :=
  match x.queue with
  | r :: queue => feed s { x with queue } (.request r)
  | [] => none

/-- The engine pauses, if that changes anything, and otherwise finds out whether
it is abandoned. -/
def rest? (s : Surroundings σ) (x : Simulation σ) : Option (Simulation σ) :=
  if x.isRestless then some x.pause
  else if x.isAbandoned then feed s x .abandoned
  else none

/-- **The next thing that happens at this instant**; `none` when time has to
pass first. -/
def turn (s : Surroundings σ) (x : Simulation σ) : Option (Simulation σ) :=
  match x.phase with
  | .idle => (take? s x).orElse fun _ => rest? s x
  | .drawing _ min max =>
    let (n, world) := s.draw min max x.world
    feed s { x with world } (.drawn n)
  | .calling .. => (land? s x).orElse fun _ => (take? s x).orElse fun _ => rest? s x
  | .waiting .. => (ring? s x).orElse fun _ => (take? s x).orElse fun _ => rest? s x
  | .between _ =>
    (take? s x).orElse fun _ =>
      if x.isAbandoned then feed s x .abandoned else feed s x .quiet
  | .landing _ => (land? s x).orElse fun _ => if x.isRestless then some x.pause else none
  | .sweeping .. => (land? s x).orElse fun _ => if x.isRestless then some x.pause else none
  | .ended => none

/-- When something is due next. -/
def nextDue (x : Simulation σ) : Option Nat :=
  match x.call, x.timer with
  | some c, some t => some (min c.due t)
  | some c, none => some c.due
  | none, t => t

/-- **Lets time pass** until an instant, or until nothing is left to do at an
earlier one at which `enough` holds. At most so many things happen. -/
def advance (s : Surroundings σ) (enough : Simulation σ → Bool) (target : Nat) :
    Nat → Simulation σ → Simulation σ
  | 0, x => x
  | turns + 1, x =>
    match turn s x with
    | some y => advance s enough target turns y
    | none =>
      if enough x then x
      else match x.nextDue with
        | some due =>
          if due ≤ target then advance s enough target turns { x with clock := due }
          else { x with clock := target }
        | none => { x with clock := target }

/-- How many things may happen at most while time passes; enough for every run
that anyone will live to see the end of. -/
def patience : Nat := 1000000000000000

/-- Lets time pass until an instant; what is due just then still happens. -/
def advanceTo (s : Surroundings σ) (target : Nat) (x : Simulation σ) : Simulation σ :=
  advance s (fun _ => false) target patience x

/-- Lets everything happen that can happen at this instant. -/
def settle (s : Surroundings σ) (x : Simulation σ) : Simulation σ := advanceTo s x.clock x

/-- Lets time pass until nothing runs, but no longer than until an instant. -/
def advanceUntilIdle (s : Surroundings σ) (target : Nat) (x : Simulation σ) : Simulation σ :=
  advance s (fun x => x.status.isIdle) target patience x

/-- **Sends a command past the engine** and lets time pass until it is answered. -/
def bypass (s : Surroundings σ) (output : Relay) (power : Power) (x : Simulation σ) :
    Except ActuatorFault Unit × Simulation σ :=
  let number := x.calls + 1
  let due := x.clock + s.latency
  let x := { x with calls := number }
  let x := if s.latency = 0 then x else { advanceTo s (due - 1) x with clock := due }
  let (result, world) := s.switch number output power x.world
  (result, { x with world })

/-- Sends off commands past the engine, one after the other. -/
def bypassSweep (s : Surroundings σ) : List Relay → Sweep → Simulation σ → Sweep × Simulation σ
  | [], report, x => (report, x)
  | r :: rest, report, x =>
    let (result, x) := bypass s r .off x
    bypassSweep s rest (report.record r result) x

end Simulation

end Switchboard.Engine
