import Switchboard.Console.Help
import Switchboard.Console.Station

/-!
# A run of the program

The program is started with the words of a command line. It reads its
configuration, opens its database and carries one command out. Databases in
files last; one in memory begins empty every time.

The program ends with 0 if all went well, with 1 if the command failed, and
with 2 if the command line makes no sense. Of two faults the first counts, in
the order in which things are done: the command line, the configuration, the
database, the address of the controller, the command.
-/

namespace Switchboard.Console

/-- **The databases in files**, by the names of their files. -/
abbrev Shelf := List (String × Database)

/-- Puts a database in the place of the one with its name, or adds it. -/
def Shelf.put (shelf : Shelf) (path : String) (d : Database) : Shelf :=
  (path, d) :: shelf.filter (·.1 ≠ path)

/-- **What surrounds a run of the program**, with a device of type `δ` behind
the network. -/
structure Session (δ : Type) where
  /-- What there is at a path, databases apart. -/
  files : String → File
  /-- The variables of the environment. -/
  env : String → Option String
  /-- What answers on the network. -/
  link : Controller.Link δ
  /-- What is behind the network. -/
  device : δ
  /-- When the program was started, in milliseconds since the beginning of 1970. -/
  began : Int
  /-- Where identifiers of journal entries come from. -/
  ids : IdSupply
  /-- Where identifiers of a new database come from. -/
  databaseIds : IdSupply
  /-- Where random lengths come from. -/
  dice : Dice
  /-- When the user wishes to interrupt a run. -/
  wish : Wish δ := fun _ => false

/-- **What a run of the program came to.** -/
structure Ending where
  /-- The number that the program ends with. -/
  code : Nat
  /-- What it printed. -/
  lines : List Line
deriving Repr

namespace Ending

/-- The line that tells of a fault. -/
def complaint (instant : Nat) (f : Fault) : Line := .err instant ("Error: " ++ f.term.print)

/-- When the last of some lines was printed. -/
def lastInstant (lines : List Line) : Nat := (lines.getLast?.map Line.instant).getD 0

/-- The end of a run of the program that came to something. -/
def ofOutcome (o : Outcome) : Ending :=
  match o.fault with
  | none => ⟨0, o.lines⟩
  | some f => ⟨1, o.lines ++ [complaint (lastInstant o.lines) f]⟩

/-- The end of a run of the program that carried no command out. -/
def ofStop (fromEnv : Option String) (stop : Stop) : Ending :=
  match stop with
  | .misuse => ⟨2, (stop.page fromEnv).map (.err 0)⟩
  | _ => ⟨0, (stop.page fromEnv).map (.out 0)⟩

/-- What was printed to a stream. -/
def printed (e : Ending) (stream : Stream) : String := Line.printed stream e.lines

end Ending

namespace Session

variable {δ : Type}

/-- The directory that a path leads to the last part of. -/
def directoryOf (path : String) : String :=
  String.ofList ((path.toList.reverse.dropWhile (· ≠ '/')).drop 1).reverse

/-- Whether a new file could be made at a path. -/
def canMake (s : Session δ) (path : String) : Bool :=
  let directory := directoryOf path
  directory.isEmpty || s.files directory = .directory

/-- **Opens the database in a file.** -/
def openFile (s : Session δ) (shelf : Shelf) (path : String) (readOnly : Bool) :
    Except Database.Fault Database :=
  match shelf.lookup path with
  | some d => .ok d
  | none =>
    match s.files path with
    | .missing =>
      if !readOnly && s.canMake path then .ok (.empty s.databaseIds) else .error .unopenable
    | .directory => .error .unopenable
    | .binary => .error .foreign
    | .text t => if t.isEmpty && !readOnly then .ok (.empty s.databaseIds) else .error .foreign

/-- Opens a database. -/
def openDatabase (s : Session δ) (shelf : Shelf) :
    Database.Place → Except Database.Fault Database
  | .memory => .ok (.empty s.databaseIds)
  | .file path readOnly => s.openFile shelf path readOnly

/-- The databases after one of them was used. -/
def shelve (shelf : Shelf) (place : Database.Place) (d : Database) : Shelf :=
  match place with
  | .memory => shelf
  | .file path _ => shelf.put path d

/-- Whether a database must be left as it is. -/
def isSealed : Database.Place → Bool
  | .memory => false
  | .file _ readOnly => readOnly

/-- The path of the database that a configuration names, if it is in a file. -/
def databasePath? (c : Config) : Option String :=
  match Database.Place.ofUrl c.databaseUrl with
  | .ok (.file path _) => some path
  | _ => none

/-- **Carries a command out** with a configuration. -/
def carryOut (s : Session δ) (shelf : Shelf) (c : Config) (command : Command) :
    Outcome × Shelf :=
  match Database.Place.ofUrl c.databaseUrl with
  | .error f => (.failed (.database f), shelf)
  | .ok place =>
    match s.openDatabase shelf place with
    | .error f => (.failed (.database f), shelf)
    | .ok database =>
      match c.choice with
      | .error f => (.failed (.config f), shelve shelf place database)
      | .ok choice =>
        let wiring : Wiring δ := ⟨c.panel, c.eventCapacity, choice, s.link⟩
        let station : Station δ :=
          { database, sealed := isSealed place, device := s.device, ids := s.ids, dice := s.dice }
        let (o, station) := station.execute wiring s.files s.began s.wish command
        (o, shelve shelf place station.database)

/-- **Runs the program** with the words of a command line. -/
def run (s : Session δ) (shelf : Shelf) (words : List String) : Ending × Shelf :=
  let fromEnv := s.env "RELAYHUB_CONFIG"
  match CommandLine.ofWords fromEnv words with
  | .error stop => (.ofStop fromEnv stop, shelf)
  | .ok line =>
    match Config.load (s.files line.config) s.env with
    | .error f => (.ofOutcome (.failed (.config f)), shelf)
    | .ok c =>
      let (o, shelf) := s.carryOut shelf c line.command
      (.ofOutcome o, shelf)

end Session

end Switchboard.Console
