/-!
# What there is at a path

A file is of use here only if it holds a text. There may be nothing at a path,
or something that is no text.
-/

namespace Switchboard

/-- **What there is at a path.** -/
inductive File where
  /-- Nothing. -/
  | missing
  /-- A directory. -/
  | directory
  /-- A file whose bytes are no text. -/
  | binary
  /-- A file with a text. -/
  | text (s : String)
deriving Repr, DecidableEq

namespace File

/-- **Why there is no text at a path.** -/
inductive Fault where
  /-- There is nothing. -/
  | missing
  /-- There is a directory. -/
  | directory
  /-- There is a file whose bytes are no text. -/
  | binary
deriving Repr, DecidableEq

/-- The fault in words. -/
def Fault.message : Fault → String
  | missing => "No such file or directory (os error 2)"
  | directory => "Is a directory (os error 21)"
  | binary => "stream did not contain valid UTF-8"

/-- **The text at a path.** -/
def read : File → Except Fault String
  | missing => .error .missing
  | directory => .error .directory
  | binary => .error .binary
  | text s => .ok s

end File

end Switchboard
