import Switchboard.Catalog
import Switchboard.Journal.Table
import Switchboard.Text.Digit
import Switchboard.Text.Quoted

/-!
# The database

The catalog and the journal are kept together in a database. A URL says where
it is: in memory, where it lasts as long as the program that opened it, or in a
file. The file is made if it is not there, unless the URL asks for reading
only.

The part of a URL before the first `?` names the file, with characters written
as `%` and two digits of base 16 where they need to be. The part after it holds
options, of which the access mode is the only one that matters here.
-/

namespace Switchboard

/-- **The database.** -/
structure Database where
  /-- The programs. -/
  catalog : Catalog
  /-- What was switched. -/
  journal : Journal.Table
deriving Repr

namespace Database

/-- A database with nothing in it. -/
def empty (ids : IdSupply) : Database := ⟨.empty ids, .empty Journal.usualCapacity⟩

/-- **What is wrong with a database.** -/
inductive Fault where
  /-- Its URL makes no sense. -/
  | badUrl (reason : String)
  /-- Its file is not there and cannot be made. -/
  | unopenable
  /-- Its file holds something else. -/
  | foreign
deriving Repr, DecidableEq

/-- The fault in words. -/
def Fault.message : Fault → String
  | badUrl _ => "database error"
  | unopenable => "database error"
  | foreign => "migration error"

/-- **Where a database is.** -/
inductive Place where
  /-- In memory. -/
  | memory
  /-- In a file. -/
  | file (path : String) (readOnly : Bool)
deriving Repr, DecidableEq

/-! ## Reading a URL -/

/-- Drops a text from the beginning as often as it is there. -/
def dropLeading (w : List Char) : Nat → List Char → List Char
  | 0, cs => cs
  | n + 1, cs => if w.isPrefixOf cs then dropLeading w n (cs.drop w.length) else cs

/-- A URL without its scheme. -/
def withoutScheme (url : List Char) : List Char :=
  dropLeading "sqlite:".toList url.length (dropLeading "sqlite://".toList url.length url)

/-- **The bytes that a part of a URL stands for.** A `%` without two digits
after it stands for itself. -/
def decodePercent : List Char → List UInt8
  | '%' :: a :: b :: rest =>
    match Text.hexValue? a, Text.hexValue? b with
    | some x, some y => .ofNat (x * 16 + y) :: decodePercent rest
    | _, _ => ('%'.toString.toUTF8.toList) ++ decodePercent (a :: b :: rest)
  | c :: rest => c.toString.toUTF8.toList ++ decodePercent rest
  | [] => []
termination_by cs => cs.length

/-- The text that bytes hold, if they hold one. -/
def textOf? (bytes : List UInt8) : Option String := String.fromUTF8? ⟨bytes.toArray⟩

/-- A word of the options: a `+` stands for a space. -/
def optionWord (cs : List Char) : String :=
  (textOf? (decodePercent (cs.map fun c => if c = '+' then ' ' else c))).getD ""

/-- **The options of a URL**, as names and values. -/
def optionsOf (cs : List Char) : List (String × String) :=
  (cs.splitOn '&').filterMap fun part =>
    if part.isEmpty then none
    else
      let name := part.takeWhile (· ≠ '=')
      some (optionWord name, optionWord (part.drop (name.length + 1)))

/-- What is wrong with the value of an option. -/
def badValue (name value : String) : String :=
  "unknown value " ++ Text.quoted value ++ " for `" ++ name ++ "`"

/-- The values that an option with fixed values may have. -/
def valuesOf? : String → Option (List String)
  | "mode" => some ["ro", "rw", "rwc", "memory"]
  | "cache" => some ["private", "shared"]
  | "immutable" => some ["true", "1", "false", "0"]
  | _ => none

/-- What is wrong with an option, if anything is. -/
def optionFault? (name value : String) : Option String :=
  if name = "vfs" then none
  else match valuesOf? name with
    | some values => if values.contains value then none else some (badValue name value)
    | none => some ("unknown query parameter `" ++ name ++ "` while parsing connection URL")

/-- The place of a file, as its options change it. -/
def Place.adjust (p : Place) (name value : String) : Place :=
  match p, name, value with
  | .file path _, "mode", "ro" => .file path true
  | .file _ _, "mode", "memory" => .memory
  | p, _, _ => p

/-- **The place that a URL names**, or what is wrong with it. A file without a
name is in memory as well. -/
def Place.ofUrl (url : String) : Except Fault Place :=
  let cs := withoutScheme url.toList
  let name := cs.takeWhile (· ≠ '?')
  let options := optionsOf (cs.drop (name.length + 1))
  match textOf? (decodePercent name) with
  | none => .error (.badUrl "invalid utf-8 sequence")
  | some path =>
    match options.findSome? fun (k, v) => optionFault? k v with
    | some reason => .error (.badUrl reason)
    | none =>
      let place := if path.isEmpty || name = ":memory:".toList then .memory else .file path false
      .ok (options.foldl (fun p (k, v) => p.adjust k v) place)

end Database

end Switchboard
