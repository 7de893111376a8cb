import Switchboard.Engine.Event

/-!
# What a command prints

A command prints lines, each at some instant and to one of two streams: what
was asked for, and what went wrong.
-/

namespace Switchboard.Console

/-- **Where a line is printed.** -/
inductive Stream where
  /-- Where the answer goes. -/
  | out
  /-- Where complaints go. -/
  | err
deriving Repr, DecidableEq

/-- **A printed line.** -/
structure Line where
  /-- When it is printed, in milliseconds since the command began. -/
  instant : Nat
  /-- Where it is printed. -/
  stream : Stream
  /-- What it says; a line may be folded. -/
  text : String
deriving Repr, DecidableEq

namespace Line

/-- A line of the answer. -/
def out (instant : Nat) (text : String) : Line := ⟨instant, .out, text⟩

/-- A complaint. -/
def err (instant : Nat) (text : String) : Line := ⟨instant, .err, text⟩

/-- **Everything that was printed to a stream.** -/
def printed (stream : Stream) (lines : List Line) : String :=
  lines.foldl (fun s l => if l.stream = stream then s ++ l.text ++ "\n" else s) ""

/-- **The line for an event of a run.** -/
def ofEvent (instant : Nat) : Engine.Event → Line
  | .stepAdvanced words => out instant ("> " ++ words)
  | .tick n => out instant ("  " ++ Nat.repr n ++ "s")
  | .finished => out instant "finished"
  | .error reason => err instant ("error: " ++ reason)
  | .cancelled => out instant "cancelled"

end Line

end Switchboard.Console
