import Switchboard.Fault
import Switchboard.Journal.Basic
import Switchboard.Size
import Switchboard.Time.Reader

/-!
# The journal as a table

A stored journal keeps an entry as a row of plain values. The identifiers of
rows are distinct, and each row has a number greater than those of all rows
that were there before it. What is in a row may have been put there by someone
else, so reading a row may fail; an answer that would contain such a row is an
error as a whole.
-/

namespace Switchboard.Journal

/-- **A row of the table.** -/
structure Row where
  /-- The identifier. -/
  id : String
  /-- The number of the output. -/
  output : Int
  /-- The label of the state. -/
  power : String
  /-- The point in time, as RFC 3339 writes it. -/
  time : String
deriving Repr, DecidableEq

/-- The row that keeps an entry. -/
def Entry.toRow (e : Entry) : Row := ⟨e.id, e.output.val, e.power.label, e.time.offsetText⟩

/-- **The entry that a row keeps**, if every value in it makes sense. -/
def Row.toEntry? (r : Row) : Option Entry := do
  let output ← if r.output < 0 then none else Relay.ofNat? r.output.toNat
  let power ← Power.ofLabel? r.power
  let time ← Timestamp.ofRecord? r.time
  some ⟨r.id, output, power, time⟩

/-- **A row in its place**: rows are numbered as they come. -/
structure Placed where
  /-- The number. -/
  number : Nat
  /-- The row. -/
  row : Row
deriving Repr, DecidableEq

/-- **A journal in a table.** -/
structure Table where
  /-- How many rows are kept. -/
  capacity : Nat
  /-- The greatest number that was given to a row, also if that row is gone. -/
  last : Nat
  /-- What is in the table. -/
  stored : List Placed
deriving Repr, DecidableEq

namespace Table

/-- A journal without rows. -/
def empty (capacity : Nat) : Table := ⟨capacity, 0, []⟩

/-- What is in the table, the greatest number first. -/
def newestFirst (j : Table) : List Placed := j.stored.mergeSort fun a b => b.number ≤ a.number

/-- **The newest rows** up to a number, newest first. The number of rows that are asked for
is one of 64 bits with a sign; greater numbers are cut down to the greatest. -/
def newest (j : Table) (limit : Nat) : List Placed :=
  j.newestFirst.take (min limit Size.greatestSigned64)

/-- Adds a row as it is, under the next number. -/
def insert (j : Table) (r : Row) : Table :=
  { j with last := j.last + 1, stored := j.stored ++ [⟨j.last + 1, r⟩] }

/-- Removes every row whose number is not among those of the newest. -/
def trim (j : Table) : Table :=
  { j with
    stored := j.stored.filter fun x => ((j.newest j.capacity).map Placed.number).contains x.number }

/-- **Adds an entry**, unless one with its identifier is there; the oldest rows
give way when there are too many. -/
def append (j : Table) (e : Entry) : Except HubFault Table :=
  if j.stored.any (fun x => x.row.id = e.id) then .error .storage
  else .ok (j.insert e.toRow).trim

/-- **The newest entries** up to a number, newest first. -/
def recent (j : Table) (limit : Nat) : Except HubFault (List Entry) :=
  match (j.newest limit).mapM fun x => x.row.toEntry? with
  | some es => .ok es
  | none => .error .storage

/-- Forgets everything but which numbers were given. -/
def clear (j : Table) : Table := { j with stored := [] }

/-- The rows as they are, newest first. -/
def rows (j : Table) : List Row := j.newestFirst.map Placed.row

/-- The table of given rows, newest first. -/
def ofRows (capacity : Nat) (rows : List Row) : Table := rows.reverse.foldl insert (empty capacity)

end Table

end Switchboard.Journal
