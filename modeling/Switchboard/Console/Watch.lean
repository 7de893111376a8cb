import Switchboard.Broadcast
import Switchboard.Engine.Simulation

/-!
# Following a run

Someone who started a run reads its events from a broadcast channel, so they
may miss some when they are slow; the last event of a run is never missed,
because nothing is published after it. They may also interrupt the run. Then
they stop reading, ask the engine to stop, and wait for its answer.

The engine and its follower take turns in no particular order. A `Watch` is the
state of both, and a `Move` is a turn of either; `next` is the order in which
the console lets them take turns.
-/

namespace Switchboard.Console

open Engine (Event Reply Simulation Surroundings Sweep Ticket)

/-- **How a followed run ended.** -/
inductive RunEnd where
  /-- The program is complete. -/
  | finished
  /-- An output could not be switched. -/
  | failed (reason : String)
  /-- Someone else stopped the run. -/
  | cancelled
  /-- The follower stopped the run. -/
  | stopped (sweep : Sweep)
deriving Repr, DecidableEq

/-- The end of a run that an event tells of. -/
def RunEnd.ofEvent? : Event → Option RunEnd
  | .stepAdvanced _ => none
  | .tick _ => none
  | .finished => some .finished
  | .error reason => some (.failed reason)
  | .cancelled => some .cancelled

/-- **An engine and the one who follows it.** -/
structure Watch (σ : Type) where
  /-- The engine. -/
  sim : Simulation σ
  /-- The channel of its events. -/
  channel : Broadcast Event
  /-- How far the follower has read. -/
  seen : Nat := 0
  /-- What the follower has read and when, newest first. -/
  heard : List (Nat × Event) := []
  /-- What the engine answered, newest first. -/
  replies : List (Ticket × Reply) := []
  /-- Whether the follower has interrupted the run. -/
  interrupted : Bool := false
  /-- The end of the run, as far as the follower knows. -/
  ended : Option RunEnd := none

/-- **A turn of the engine or its follower.** -/
inductive Move where
  /-- The engine does something. -/
  | engine
  /-- The follower reads from the channel. -/
  | read
  /-- The follower interrupts the run. -/
  | interrupt
  /-- Time passes until something is due. -/
  | wait
deriving Repr, DecidableEq

namespace Watch

variable {σ : Type}

/-- The ticket of the follower's start. -/
def startTicket : Ticket := 0

/-- The ticket of the follower's stop. -/
def stopTicket : Ticket := 1

/-- An engine that nobody has asked for anything. -/
def fresh (capacity : Nat) (world : σ) : Watch σ := { sim := { world }, channel := .empty capacity }

/-- Notes something that the engine did. -/
def absorb (w : Watch σ) : Engine.Effect → Watch σ
  | .event e => { w with channel := w.channel.publish e }
  | .answer ticket reply =>
    { w with
      replies := (ticket, reply) :: w.replies
      ended := match reply with
        | .stopped sweep => if ticket = stopTicket then some (.stopped sweep) else w.ended
        | _ => w.ended }
  | _ => w

/-- The engine does something. -/
def engine? (s : Surroundings σ) (w : Watch σ) : Option (Watch σ) :=
  (Simulation.turn s { w.sim with trace := [] }).map fun sim =>
    (sim.trace.reverse.map Prod.snd).foldl absorb { w with sim }

/-- The follower reads from the channel. -/
def read? (w : Watch σ) : Option (Watch σ) :=
  if w.interrupted then none
  else match w.channel.receive w.seen with
    | (.item e, seen) =>
      some { w with
        seen
        heard := (w.sim.clock, e) :: w.heard
        ended := RunEnd.ofEvent? e }
    | (.lagged _, seen) => some { w with seen }
    | (.empty, _) => none

/-- The follower asks the engine to stop. -/
def interrupt? (w : Watch σ) : Option (Watch σ) :=
  if w.interrupted then none
  else some { w with sim := w.sim.submit (.stop stopTicket), interrupted := true }

/-- Time passes. -/
def wait? (w : Watch σ) : Option (Watch σ) :=
  w.sim.nextDue.map fun due => { w with sim := { w.sim with clock := due } }

/-- **Takes a turn**, if it can be taken; none is left when the run is over. -/
def move (s : Surroundings σ) (w : Watch σ) (m : Move) : Option (Watch σ) :=
  if w.ended.isSome then none
  else match m with
    | .engine => w.engine? s
    | .read => w.read?
    | .interrupt => w.interrupt?
    | .wait => if (w.engine? s).isSome then none else w.wait?

/-- **The turn that the console takes next.** Everything that can be read is
read, then the engine does what it can, and only then a wish to interrupt is
looked for; time passes when there is none. -/
def next (s : Surroundings σ) (wish : Watch σ → Bool) (w : Watch σ) : Option (Watch σ) :=
  (w.move s .read).orElse fun _ =>
    (w.move s .engine).orElse fun _ =>
      if wish w then (w.move s .interrupt).orElse fun _ => w.move s .wait else w.move s .wait

/-- **Follows a run to its end**: takes turns until none is left. -/
def follow (s : Surroundings σ) (wish : Watch σ → Bool) (w : Watch σ) : Watch σ := Id.run do
  let mut w := w
  repeat
    match w.next s wish with
    | some later => w := later
    | none => break
  return w

/-- A follower who takes a turn goes on following. -/
theorem follow_of_next_eq_some {s : Surroundings σ} {wish : Watch σ → Bool} {w later : Watch σ}
    (h : w.next s wish = some later) : w.follow s wish = later.follow s wish := by
  have : Nonempty (Watch σ) := ⟨w⟩
  refine (repeatM_eq_of_monadTail (m := Id) w).trans ?_
  simp only [repeatM.body, h]
  rfl

/-- A follower who has no turn left is done. -/
theorem follow_of_next_eq_none {s : Surroundings σ} {wish : Watch σ → Bool} {w : Watch σ}
    (h : w.next s wish = none) : w.follow s wish = w := by
  have : Nonempty (Watch σ) := ⟨w⟩
  refine (repeatM_eq_of_monadTail (m := Id) w).trans ?_
  simp only [repeatM.body, h]
  rfl

/-- **Asks for a program to be run**, and lets the engine take notice. -/
def start (s : Surroundings σ) (program : Program) (w : Watch σ) : Watch σ :=
  let w := { w with sim := w.sim.submit (.start startTicket program) }
  (w.engine? s).getD w

/-- **Asks the engine to stop**, and waits for its answer. -/
def stop (s : Surroundings σ) (w : Watch σ) : Watch σ :=
  follow s (fun _ => false) (w.interrupt?.getD w)

end Watch

end Switchboard.Console
