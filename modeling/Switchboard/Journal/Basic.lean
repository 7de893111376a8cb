import Switchboard.Relay.Basic
import Switchboard.Time.Timestamp

/-!
# The journal of switched outputs

Whenever a run has switched an output, the journal gets an entry. It keeps the
newest entries up to its capacity, and is read newest first.
-/

namespace Switchboard.Journal

/-- **The number of entries that a journal keeps** unless told otherwise. -/
def usualCapacity : Nat := 100

/-- **An output that was switched.** -/
structure Entry where
  /-- The identifier. -/
  id : String
  /-- The output. -/
  output : Relay
  /-- What it was switched to. -/
  power : Power
  /-- When the controller had confirmed it. -/
  time : Timestamp
deriving Repr, DecidableEq, Inhabited

/-- **A journal in memory.** -/
structure Memory where
  /-- How many entries are kept. -/
  capacity : Nat
  /-- The entries, oldest first. -/
  entries : List Entry
deriving Repr, DecidableEq

namespace Memory

/-- A journal without entries. -/
def empty (capacity : Nat) : Memory := ⟨capacity, []⟩

/-- The entries that stay when there has to be room for one more: the oldest give way. -/
def makeRoom (j : Memory) : List Entry := j.entries.drop (j.entries.length + 1 - j.capacity)

/-- **Adds an entry** as the newest. A journal that keeps nothing stays as it is. -/
def append (j : Memory) (e : Entry) : Memory :=
  if j.capacity = 0 then j else { j with entries := j.makeRoom ++ [e] }

/-- The newest entries up to a number, newest first. -/
def recent (j : Memory) (limit : Nat) : List Entry := j.entries.reverse.take limit

/-- Forgets everything. -/
def clear (j : Memory) : Memory := { j with entries := [] }

/-- Every entry, oldest first. -/
def oldestFirst (j : Memory) : List Entry := j.entries

end Memory

end Switchboard.Journal
