import Switchboard.Board
import Switchboard.Console.Command
import Switchboard.Console.Outcome
import Switchboard.Controller.Exchange
import Switchboard.Dice

/-!
# The station

A station is everything that commands work on: the database, the outputs, and
what random lengths and identifiers come from. The configuration says which
controller drives the outputs, and how things are called.

Every command prints lines and may fail. A run is followed to its end, or until
the one who started it wishes to interrupt it.
-/

namespace Switchboard.Console

open Engine (Surroundings)

/-- **What commands work on**, with a device of type `δ` behind the network. -/
structure Station (δ : Type) where
  /-- The programs and the journal. -/
  database : Database
  /-- Whether the database must be left as it is. -/
  sealed : Bool := false
  /-- The simulated board. -/
  board : Board := .fresh
  /-- What is behind the network. -/
  device : δ
  /-- Where identifiers of journal entries come from. -/
  ids : IdSupply
  /-- Where random lengths come from. -/
  dice : Dice

/-- **How a station is wired.** -/
structure Wiring (δ : Type) where
  /-- The labels of the outputs. -/
  panel : Panel
  /-- How many events of a run are kept for its follower. -/
  eventCapacity : Nat
  /-- The controller that drives the outputs. -/
  choice : Config.Choice
  /-- What answers on the network. -/
  link : Controller.Link δ

/-! ## The engine of a station -/

variable {δ : Type}

namespace Station

/-- Carries a command out. -/
def switch (w : Wiring δ) (output : Relay) (power : Power) (x : Station δ) :
    Except ActuatorFault Unit × Station δ :=
  match w.choice with
  | .simulated _ =>
    let (result, board) := x.board.command output power
    (result, { x with board })
  | .networked base =>
    let (result, device) := Controller.set base w.link output power x.device
    (result, { x with device })

/-- Notes in the journal that an output was switched. Nothing depends on whether
it can be noted. -/
def record (began : Int) (clock : Nat) (output : Relay) (power : Power) (x : Station δ) :
    Station δ :=
  let (id, ids) := x.ids.mint
  let x := { x with ids }
  match Timestamp.ofMillis? (began + clock) with
  | none => x
  | some time =>
    match x.database.journal.append ⟨id, output, power, time⟩ with
    | .ok journal =>
      if x.sealed then x else { x with database := { x.database with journal } }
    | .error _ => x

/-- Draws the length of a wait. -/
def draw (min max : Nat) (x : Station δ) : Nat × Station δ :=
  let (n, dice) := x.dice.roll min max
  (n, { x with dice })

end Station

namespace Wiring

/-- How long the controller takes for a command, as far as time is counted. -/
def latency (w : Wiring δ) : Nat :=
  match w.choice with
  | .simulated latency => latency
  | .networked _ => 0

/-- **The surroundings of an engine** at a station, for a command that began at
a given time. -/
def surroundings (w : Wiring δ) (began : Int) : Surroundings (Station δ) where
  panel := w.panel
  tickPeriod := Config.tickPeriod
  latency := w.latency
  switch := fun _ => Station.switch w
  record := Station.record began
  draw := Station.draw

/-- An engine that nobody has asked for anything. -/
def engine (w : Wiring δ) (x : Station δ) : Watch (Station δ) := .fresh w.eventCapacity x

end Wiring

/-- **When someone wishes to interrupt a run.** -/
abbrev Wish (δ : Type) := Watch (Station δ) → Bool

/-- **The wish to interrupt a run at an instant**: as soon as nothing is due up to
then. -/
def Wish.ofInstant (instant : Nat) : Wish δ := fun w =>
  match w.sim.nextDue with
  | some due => instant < due
  | none => true

/-- What a watch came to. -/
def Watch.outcome (panel : Panel) (w : Watch (Station δ)) : Outcome :=
  let heard := w.heard.reverse.map fun (instant, e) => Line.ofEvent instant e
  match w.ended with
  | some runEnd =>
    let o := runEnd.outcome panel w.sim.clock
    { o with lines := heard ++ o.lines }
  | none => ⟨heard, some (.hub .engineUnavailable)⟩

/-! ## The commands -/

namespace Station

/-- **Adds the program that a file describes.** -/
def importFile (file : File) (x : Station δ) : Outcome × Station δ :=
  match file.read with
  | .error f => (.failed (.file f), x)
  | .ok text =>
    match x.database.catalog.importText text with
    | (.error f, _) => (.failed (.hub f), x)
    | (.ok p, catalog) =>
      if x.sealed then (.failed (.hub .storage), x)
      else (.answer ["imported " ++ summary p],
        { x with database := { x.database with catalog } })

/-- **Shows a program as a document.** -/
def exportProgram (key : String) (x : Station δ) : Outcome :=
  match x.database.catalog.resolve key with
  | .error f => .failed (.hub f)
  | .ok p => .answer [p.toText]

/-- **Lists the programs.** -/
def list (x : Station δ) : Outcome :=
  match x.database.catalog.list with
  | .error f => .failed (.hub f)
  | .ok [] => .answer ["no programs"]
  | .ok ps => .answer (ps.map listing)

/-- **Forgets a program.** -/
def delete (key : String) (x : Station δ) : Outcome × Station δ :=
  match x.database.catalog.resolve key with
  | .error f => (.failed (.hub f), x)
  | .ok p =>
    if x.sealed then (.failed (.hub .storage), x)
    else (.answer ["deleted " ++ summary p],
      { x with database := { x.database with catalog := x.database.catalog.delete p.id } })

/-- **Runs a program**, and follows the run. -/
def run (w : Wiring δ) (began : Int) (wish : Wish δ) (key : String) (x : Station δ) :
    Outcome × Station δ :=
  match x.database.catalog.runnable key with
  | .error f => (.failed (.hub f), x)
  | .ok p =>
    let announced := Line.out 0 ("running " ++ summary p)
    let s := w.surroundings began
    let started := (w.engine x).start s p
    match started.replies.lookup Watch.startTicket with
    | some .started =>
      let watched := started.follow s wish
      let o := watched.outcome w.panel
      ({ o with lines := announced :: o.lines }, watched.sim.world)
    | some .emptyProgram =>
      (⟨[announced, .out 0 "program has no steps"], none⟩, started.sim.world)
    | some .alreadyRunning => (⟨[announced], some .busy⟩, started.sim.world)
    | _ => (⟨[announced], some (.hub .engineUnavailable)⟩, started.sim.world)

/-- **Shows what was switched lately.** -/
def history (panel : Panel) (limit : Nat) (x : Station δ) : Outcome :=
  match x.database.journal.recent limit with
  | .error f => .failed (.hub f)
  | .ok [] => .answer ["no relay activity recorded"]
  | .ok es => .answer (es.map (activity panel))

/-- **Switches every output off.** -/
def stop (w : Wiring δ) (began : Int) (x : Station δ) : Outcome × Station δ :=
  let stopped := (w.engine x).stop (w.surroundings began)
  (stopped.outcome w.panel, stopped.sim.world)

/-- The state of the outputs. -/
def outputs (w : Wiring δ) (x : Station δ) :
    Except ActuatorFault (PerRelay Power) × Station δ :=
  match w.choice with
  | .simulated _ => (.ok x.board.outputs, x)
  | .networked base =>
    let (result, device) := Controller.read base w.link x.device
    (result, { x with device })

/-- **Shows the state of the outputs.** -/
def state (w : Wiring δ) (x : Station δ) : Outcome × Station δ :=
  match x.outputs w with
  | (.error f, x) => (.failed (.actuator f), x)
  | (.ok powers, x) => (.answer (Relay.all.map fun r => outputLine w.panel r (powers.of r)), x)

/-- **Carries a command out.** -/
def execute (w : Wiring δ) (files : String → File) (began : Int) (wish : Wish δ)
    (command : Command) (x : Station δ) : Outcome × Station δ :=
  match command with
  | .importFile path => x.importFile (files path)
  | .exportProgram key => (x.exportProgram key, x)
  | .list => (x.list, x)
  | .delete key => x.delete key
  | .run key => x.run w began wish key
  | .history limit => (x.history w.panel limit, x)
  | .stop => x.stop w began
  | .state => x.state w

end Station

end Switchboard.Console
