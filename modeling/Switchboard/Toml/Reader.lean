import Switchboard.Toml.Lexeme
import Switchboard.Toml.Tree

/-!
# Reading a configuration file

`Toml.parse` reads a file in TOML 1.0. A file is read as a list of statements,
one a line: headings and members. The statements are then carried out on a
tree of tables, each of them under the heading that was read last.
-/

namespace Switchboard.Toml

open Text Text.Piece

/-! ## Values -/

/-- How many arrays and inline tables may lie inside one another. -/
def nestingLimit : Nat := 79

/-- The members of an inline table. -/
def inlineTable (pairs : List ((List String × String) × Json)) : Option Json :=
  (pairs.foldlM (fun (ms : Members) (pair : (List String × String) × Json) =>
    ms.addValue pair.1.1 pair.1.2 pair.2) []).map fun ms => .obj (membersToJson ms)

mutual

/-- **A value.** -/
def value : (fuel levels : Nat) → Piece Json
  | 0, _, _ => none
  | fuel + 1, levels, cs =>
    match cs, levels with
    | '[' :: rest, levels + 1 => arrayItems fuel levels [] (skipLines rest.length rest)
    | '[' :: _, 0 => none
    | '{' :: rest, levels + 1 =>
      match skipSpaces rest with
      | '}' :: rest => some (.obj [], rest)
      | rest => inlineMembers fuel levels [] rest
    | '{' :: _, 0 => none
    | '"' :: _, _ => (stringPiece cs).map fun (s, rest) => (.text s, rest)
    | '\'' :: _, _ => (stringPiece cs).map fun (s, rest) => (.text s, rest)
    | 't' :: _, _ => (word ['t', 'r', 'u', 'e'] cs).map fun ((), rest) => (.bool true, rest)
    | 'f' :: _, _ => (word ['f', 'a', 'l', 's', 'e'] cs).map fun ((), rest) => (.bool false, rest)
    | _, _ => either date (either real fun cs => (integer cs).map fun (n, rest) => (.int n, rest)) cs

/-- The items of an array up to its end, after the items before them. -/
def arrayItems : (fuel levels : Nat) → List Json → Piece Json
  | 0, _, _, _ => none
  | fuel + 1, levels, items, cs =>
    match cs with
    | ']' :: rest => some (.arr items.reverse, rest)
    | cs =>
      match value fuel levels cs with
      | none => none
      | some (v, cs) =>
        match skipLines cs.length cs with
        | ',' :: rest => arrayItems fuel levels (v :: items) (skipLines rest.length rest)
        | ']' :: rest => some (.arr (v :: items).reverse, rest)
        | _ => none

/-- The members of an inline table up to its end, after the members before them. -/
def inlineMembers : (fuel levels : Nat) → List ((List String × String) × Json) → Piece Json
  | 0, _, _, _ => none
  | fuel + 1, levels, pairs, cs =>
    match key (keyLimit - 1) cs with
    | some (k, '=' :: cs) =>
      match value fuel levels (skipSpaces cs) with
      | none => none
      | some (v, cs) =>
        match skipSpaces cs with
        | ',' :: rest => inlineMembers fuel levels ((k, v) :: pairs) rest
        | '}' :: rest => (inlineTable ((k, v) :: pairs).reverse).map fun t => (t, rest)
        | _ => none
    | _ => none

end

/-! ## Statements -/

/-- **What a line says.** -/
inductive Statement where
  /-- A table follows. -/
  | heading (path : List String) (key : String)
  /-- One more element of a list of tables follows. -/
  | element (path : List String) (key : String)
  /-- A member of the table. -/
  | member (path : List String) (key : String) (value : Json)
deriving Repr

/-- A statement, up to the end of its line. -/
def statement : Piece Statement := fun cs =>
  match cs with
  | '[' :: '[' :: rest => do
    let ((path, k), cs) ← key (keyLimit - 1) rest
    let ((), cs) ← word [']', ']'] cs
    let ((), cs) ← lineEnd cs
    some (.element path k, cs)
  | '[' :: rest => do
    let ((path, k), cs) ← key (keyLimit - 1) rest
    let ((), cs) ← mark ']' cs
    let ((), cs) ← lineEnd cs
    some (.heading path k, cs)
  | cs => do
    let ((path, k), cs) ← key (keyLimit - 1) cs
    let ((), cs) ← mark '=' cs
    let (v, cs) ← value (2 * cs.length + 2) nestingLimit (skipSpaces cs)
    let ((), cs) ← lineEnd cs
    some (.member path k v, cs)

/-- All statements of a file. -/
def statements : Nat → List Char → Option (List Statement)
  | 0, _ => none
  | fuel + 1, cs =>
    match skipSpaces cs with
    | [] => some []
    | '#' :: rest => do
      let ((), cs) ← lineEnd ('#' :: rest)
      statements fuel cs
    | cs =>
      match newline cs with
      | some ((), rest) => statements fuel rest
      | none => do
        let (s, rest) ← statement cs
        let more ← statements fuel rest
        some (s :: more)

/-! ## Carrying the statements out -/

/-- **Carries statements out** on a tree, under the heading that was read last. -/
def build : List String → Members → List Statement → Option Members
  | _, root, [] => some root
  | _, root, .heading path k :: rest => do
    let root ← root.addHeading path k
    build (path ++ [k]) root rest
  | _, root, .element path k :: rest => do
    let root ← root.addElement path k
    build (path ++ [k]) root rest
  | current, root, .member path k v :: rest => do
    let root ← Members.alter .implied (fun _ ms => Members.addValue ms path k v) current
      .heading root
    build current root rest

/-- The rest after a byte order mark, if there is one. -/
def skipByteOrderMark : List Char → List Char
  | c :: rest => if c = '\uFEFF' then rest else c :: rest
  | [] => []

/-- **Reads a configuration file.** -/
def parse (s : String) : Option Json := do
  let cs := skipByteOrderMark s.toList
  let lines ← statements (cs.length + 1) cs
  let root ← build [] [] lines
  some (.obj (membersToJson root))

end Switchboard.Toml
