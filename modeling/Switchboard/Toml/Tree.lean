import Switchboard.Json.Basic

/-!
# Tables under construction

A configuration file is a sequence of statements that add to one tree of
tables. What a statement may add to depends on how a table came about: a table
with a heading of its own is complete once the next heading is read, a table
that is only part of the name of another may still get a heading, and a table
that stands for the dots in a key may only get more such keys.

The finished tree is a JSON object: the values of a configuration file are
those of JSON, but for dates, which nobody here reads and which are kept as
objects.
-/

namespace Switchboard.Toml

/-- **How a table came about.** -/
inductive Origin where
  /-- By a heading of its own, or as an element of a list of tables. -/
  | heading
  /-- As part of the name of another table. -/
  | implied
  /-- By the dots in a key. -/
  | dotted
deriving Repr, DecidableEq

/-- **What stands under a key.** -/
inductive Item where
  /-- A value that is complete. -/
  | value (v : Json)
  /-- A table with its members. -/
  | table (origin : Origin) (members : List (String × Item))
  /-- A list of tables, the newest first. -/
  | tables (elements : List (List (String × Item)))
deriving Repr, Inhabited

/-- **The members of a table.** -/
abbrev Members := List (String × Item)

namespace Members

/-- Puts an item under a key, in the place of the one that is there. -/
def put (ms : Members) (key : String) (item : Item) : Members :=
  if (ms.lookup key).isSome then ms.map fun m => if m.1 = key then (key, item) else m
  else ms ++ [(key, item)]

/-- **Changes the table that a path leads to.** Tables that are missing on the
way are made, as `made` says; a path of dots must not lead through a table that
has a heading. -/
def alter (made : Origin) (change : Origin → Members → Option Members) :
    List String → Origin → Members → Option Members
  | [], origin, ms => change origin ms
  | key :: path, _, ms =>
    match ms.lookup key with
    | none => (alter made change path made []).map fun inner => ms.put key (.table made inner)
    | some (.value _) => none
    | some (.tables (newest :: older)) =>
      (alter made change path .heading newest).map fun t => ms.put key (.tables (t :: older))
    | some (.tables []) => none
    | some (.table origin inner) =>
      if made = .dotted ∧ origin = .heading then none
      else (alter made change path origin inner).map fun t => ms.put key (.table origin t)

/-- Adds a value under a key of one or more parts, none of them given before. -/
def addValue (ms : Members) (path : List String) (key : String) (v : Json) : Option Members :=
  alter .dotted (fun origin ms =>
    if !path.isEmpty && origin ≠ .dotted then none
    else if (ms.lookup key).isSome then none
    else some (ms ++ [(key, .value v)])) path .heading ms

/-- Adds a heading for a table, which may have been implied but not given. -/
def addHeading (ms : Members) (path : List String) (key : String) : Option Members :=
  alter .implied (fun _ ms =>
    match ms.lookup key with
    | none => some (ms ++ [(key, .table .heading [])])
    | some (.table .implied inner) => some (ms.put key (.table .heading inner))
    | some _ => none) path .heading ms

/-- Adds a heading for one more element of a list of tables. -/
def addElement (ms : Members) (path : List String) (key : String) : Option Members :=
  alter .implied (fun _ ms =>
    match ms.lookup key with
    | none => some (ms ++ [(key, .tables [[]])])
    | some (.tables elements) => some (ms.put key (.tables ([] :: elements)))
    | some _ => none) path .heading ms

end Members

/-! ## The finished tree -/

mutual

/-- An item as a JSON value. -/
def Item.toJson : Item → Json
  | .value v => v
  | .table _ members => .obj (membersToJson members)
  | .tables elements => .arr (elementsToJson elements).reverse

/-- Members as members of a JSON object. -/
def membersToJson : List (String × Item) → List (Option String × Json)
  | [] => []
  | (key, item) :: rest => (some key, item.toJson) :: membersToJson rest

/-- Tables as JSON objects. -/
def elementsToJson : List (List (String × Item)) → List Json
  | [] => []
  | ms :: rest => .obj (membersToJson ms) :: elementsToJson rest

end

end Switchboard.Toml
