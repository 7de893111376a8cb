import Switchboard.Fault
import Switchboard.Program.Format

/-!
# The catalog of programs

Programs are kept in a table with one row per identifier. A row holds the
steps as text, so a row that someone else wrote may be unreadable; an answer
that would contain its program is an error as a whole. Rows that the catalog
wrote itself can be read as long as no step lies inside too many loops.

Lists are ordered by name and then by identifier, both by code points. A key
is first taken for an identifier and only then for a name.

A step without an identifier can only come from a row that someone else wrote.
Every reading mints one for it, and none keeps it.
-/

namespace Switchboard

namespace Catalog

/-- **A row of the table.** -/
structure Row where
  /-- The identifier of the program. -/
  id : ProgramId
  /-- Its name. -/
  name : String
  /-- Whether it may be run: not 0. -/
  enabled : Int
  /-- Its steps, as a JSON array. -/
  steps : String
deriving Repr, DecidableEq

namespace Row

/-- The row that keeps a program. -/
def ofProgram (p : Program) : Row :=
  ⟨p.id, p.name, if p.enabled then 1 else 0, (Step.listToJson p.steps).compact⟩

/-- **The steps that a text lists**, and what is left of the supply. -/
def readSteps? (supply : IdSupply) (text : String) : Option (List Step × IdSupply) :=
  match (Json.Decoder.list StepDocument.decoder).run text with
  | none => none
  | some documents =>
    let named := StepDocument.identifyAll supply documents
    match StepDocument.toSteps named.1 with
    | .error _ => none
    | .ok steps => some (steps, named.2)

/-- **The program that a row keeps**, if its steps can be read. -/
def toProgram? (supply : IdSupply) (r : Row) : Option (Program × IdSupply) :=
  (readSteps? supply r.steps).map fun (steps, rest) =>
    (⟨r.id, r.name, r.enabled ≠ 0, steps⟩, rest)

/-- The programs that rows keep, if all of them can be read. -/
def toPrograms? (supply : IdSupply) : List Row → Option (List Program)
  | [] => some []
  | r :: rest => do
    let (p, supply) ← r.toProgram? supply
    let ps ← toPrograms? supply rest
    some (p :: ps)

/-- Whether a row comes before another, or is level with it, in a list. -/
def le (a b : Row) : Bool := a.name < b.name || (a.name = b.name && !(b.id < a.id))

end Row

end Catalog

/-- **The catalog**: its rows, and the identifiers it can mint. -/
structure Catalog where
  /-- The rows, no two with the same identifier. -/
  rows : List Catalog.Row
  /-- The source of identifiers. -/
  ids : IdSupply
deriving Repr, DecidableEq

namespace Catalog

/-- A catalog without programs. -/
def empty (ids : IdSupply) : Catalog := ⟨[], ids⟩

/-! ## Rows -/

/-- The row with an identifier. -/
def row? (c : Catalog) (id : ProgramId) : Option Row := c.rows.find? (·.id = id)

/-- Puts a row in the place of the one with its identifier, or adds it. -/
def put (c : Catalog) (r : Row) : Catalog :=
  if (c.row? r.id).isSome then
    { c with rows := c.rows.map fun q => if q.id = r.id then r else q }
  else { c with rows := c.rows ++ [r] }

/-- Removes the row with an identifier, if there is one. -/
def delete (c : Catalog) (id : ProgramId) : Catalog :=
  { c with rows := c.rows.filter (·.id ≠ id) }

/-- The programs of some rows, in the order of lists. -/
def read (c : Catalog) (rows : List Row) : Except HubFault (List Program) :=
  match Row.toPrograms? c.ids (rows.mergeSort Row.le) with
  | some ps => .ok ps
  | none => .error .storage

/-! ## Reading -/

/-- The program with an identifier, if there is one. -/
def find? (c : Catalog) (id : ProgramId) : Except HubFault (Option Program) :=
  match c.row? id with
  | none => .ok none
  | some r =>
    match r.toProgram? c.ids with
    | some (p, _) => .ok (some p)
    | none => .error .storage

/-- **The program with an identifier.** -/
def get (c : Catalog) (id : ProgramId) : Except HubFault Program :=
  match c.find? id with
  | .error f => .error f
  | .ok (some p) => .ok p
  | .ok none => .error (.notFound id)

/-- **All programs.** -/
def list (c : Catalog) : Except HubFault (List Program) := c.read c.rows

/-- **The programs that are marked as enabled**, by exactly 1. -/
def listEnabled (c : Catalog) : Except HubFault (List Program) :=
  c.read (c.rows.filter (·.enabled = 1))

/-- **The first program of a name**, if there is one. -/
def findByName (c : Catalog) (name : String) : Except HubFault (Option Program) :=
  c.list.map fun ps => ps.find? (·.name = name)

/-- **The program that goes by a key.** -/
def resolve (c : Catalog) (key : String) : Except HubFault Program :=
  match c.find? key with
  | .error f => .error f
  | .ok (some p) => .ok p
  | .ok none =>
    match c.findByName key with
    | .error f => .error f
    | .ok (some p) => .ok p
    | .ok none => .error (.notFound key)

/-- **The program that goes by a key, if it may be run.** -/
def runnable (c : Catalog) (key : String) : Except HubFault Program :=
  match c.resolve key with
  | .error f => .error f
  | .ok p => if p.enabled then .ok p else .error (.disabled p.id)

/-! ## Writing -/

/-- Adds a program, unless its identifier is taken. -/
def add (c : Catalog) (p : Program) : Except HubFault Program × Catalog :=
  if (c.row? p.id).isSome then (.error .storage, c)
  else (.ok p, c.put (.ofProgram p))

/-- Puts a program in the place of the one with its identifier. -/
def replace (c : Catalog) (p : Program) : Except HubFault Program × Catalog :=
  if (c.row? p.id).isSome then (.ok p, c.put (.ofProgram p))
  else (.error (.notFound p.id), c)

/-- **Adds a valid program.** -/
def create (c : Catalog) (p : Program) : Except HubFault Program × Catalog :=
  match p.validate with
  | .error m => (.error (.malformed m), c)
  | .ok () => c.add p

/-- **Replaces a program by a valid one.** -/
def update (c : Catalog) (p : Program) : Except HubFault Program × Catalog :=
  match p.validate with
  | .error m => (.error (.malformed m), c)
  | .ok () => c.replace p

/-- **Adds the program that a text describes**, or replaces the one with its
identifier. -/
def importText (c : Catalog) (text : String) : Except HubFault Program × Catalog :=
  let (parsed, ids) := Program.ofText c.ids text
  let c := { c with ids }
  match parsed with
  | .error m => (.error (.malformed m), c)
  | .ok p =>
    match c.find? p.id with
    | .error f => (.error f, c)
    | .ok (some _) => c.replace p
    | .ok none => c.add p

end Catalog

end Switchboard
