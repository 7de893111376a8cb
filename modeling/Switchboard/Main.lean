import Std.Async.Signal
import Std.Time.DateTime.Timestamp
import Switchboard.Console.Session
import Switchboard.Controller.Device
import Switchboard.Database.Format

/-!
# The program

The outermost layer. It looks up the environment and the files that a command
line leads to, works out what the program does, prints every line when it is
due, and keeps the database.

What a run does is worked out ahead of time. When the user presses Ctrl-C it is
worked out anew, up to that instant as before and from there on interrupted.

The simulated board lasts as long as the program. There is no transport to a
controller on the network here, so nothing answers on it.
-/

namespace Switchboard.Main

open Console

/-- The variables of the environment that matter. -/
def variableNames : List String :=
  ["RELAYHUB_CONFIG", "RELAYHUB_ACTUATOR", "RELAYHUB_ESP_URL", "RELAYHUB_DATABASE_URL",
    "RELAYHUB_LOG", "RUST_LOG"]

/-- Looks the environment up. -/
def environment : IO (String → Option String) := do
  let found ← variableNames.filterMapM fun name => do
    return (← IO.getEnv name).map fun value => (name, value)
  return fun name => found.lookup name

/-- Looks up what there is at a path. -/
def look (path : String) : IO File := do
  try
    let bytes ← IO.FS.readBinFile path
    return (String.fromUTF8? bytes).elim .binary .text
  catch
    | .noFileOrDirectory .. => return .missing
    | _ => return .directory

/-- Looks up what there is at some paths, and knows of nothing else. -/
def lookAll (paths : List String) : IO (String → File) := do
  let found ← paths.mapM fun path => return (path, ← look path)
  return fun path => (found.lookup path).getD .missing

/-- The paths that a command line names. -/
def namedPaths (line : CommandLine) : List String :=
  line.config :: match line.command with
    | .importFile path => [path]
    | _ => []

/-- Where identifiers come from. -/
def supply : IO IdSupply := return ⟨← IO.rand 0 (Nat.pow 2 122)⟩

/-- Everything that is known before the program does anything: its surroundings
and its databases. -/
structure Start where
  /-- The surroundings. -/
  session : Session Unit
  /-- The databases, by their paths. -/
  shelf : Shelf

/-- Finds out everything that has to be known. -/
def prepare (words : List String) : IO Start := do
  let env ← environment
  let now ← Std.Time.Timestamp.now
  let ids ← supply
  let databaseIds ← supply
  let session : Session Unit :=
    { files := fun _ => .missing, env, link := fun _ d => (.dropped, d), device := ()
      began := now.toMillisecondsSinceUnixEpoch.val, ids, databaseIds
      dice := ⟨← IO.rand 0 Size.greatest64⟩ }
  let .ok line := CommandLine.ofWords (env "RELAYHUB_CONFIG") words
    | return ⟨session, []⟩
  let named ← lookAll (namedPaths line)
  let .ok config := Config.load (named line.config) env
    | return ⟨{ session with files := named }, []⟩
  let databasePaths := match Session.databasePath? config with
    | some path => [path, Session.directoryOf path]
    | none => []
  let files ← lookAll (namedPaths line ++ databasePaths)
  let shelf := databasePaths.filterMap fun path => match files path with
    | .text t => (Database.ofText? databaseIds t).map fun d => (path, d)
    | _ => none
  return ⟨{ session with files }, shelf⟩

/-- Prints a line. -/
def emit (l : Line) : IO Unit := do
  let handle ← match l.stream with
    | .out => IO.getStdout
    | .err => IO.getStderr
  handle.putStrLn l.text
  handle.flush

/-- How long to wait at most before looking for Ctrl-C again, in milliseconds. -/
def glance : Nat := 50

/-- Prints lines when they are due, and works out the rest anew at Ctrl-C. -/
partial def perform (began : Nat) (pressed : IO Bool) (workOut : Option Nat → Ending × Shelf)
    (interrupted : Bool) (done : Nat) (current : Ending × Shelf) : IO (Ending × Shelf) := do
  match current.1.lines[done]? with
  | none => return current
  | some l =>
    let elapsed := (← IO.monoMsNow) - began
    if l.instant ≤ elapsed then
      emit l
      perform began pressed workOut interrupted (done + 1) current
    else if !interrupted && (← pressed) then
      perform began pressed workOut true done (workOut (some elapsed))
    else
      IO.sleep (min glance (l.instant - elapsed)).toUInt32
      perform began pressed workOut interrupted done current

/-- Keeps the databases that may be written to. -/
def keep (before after : Shelf) : IO Unit :=
  for (path, d) in after do
    if (before.lookup path).map Database.toText ≠ some d.toText then
      IO.FS.writeFile path d.toText

end Switchboard.Main

open Switchboard Switchboard.Main in
/-- Runs the program. -/
def main (words : List String) : IO UInt32 := do
  let start ← prepare words
  let waiter ← Std.Async.Signal.Waiter.mk .sigint false
  let signal ← waiter.wait
  let pressed : IO Bool := return (← Std.Async.AsyncTask.getState signal) matches .finished
  let workOut : Option Nat → Console.Ending × Console.Shelf
    | none => start.session.run start.shelf words
    | some instant =>
      { start.session with wish := Console.Wish.ofInstant instant }.run start.shelf words
  let (ending, shelf) ←
    perform (← IO.monoMsNow) pressed workOut false 0 (workOut none)
  waiter.stop
  keep start.shelf shelf
  return ending.code.toUInt32
