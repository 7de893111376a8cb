import Switchboard.Json.Reader
import Switchboard.Size

/-!
# Reading typed data from JSON

A `Decoder` reads a value of some type from a JSON value. It is told how many
containers may still be opened, and every array or object it opens uses one
up; values that are skipped because nobody asked for them are never opened and
so never count. A document is read with `depthLimit` containers allowed.

The rules for records are strict about what they know and lax about what they
do not: unknown members are skipped, a known member given twice is a fault,
and a record may also be written as an array of its fields in order, from
which trailing fields may be missing if they have defaults. `null` stands for
a missing value only where the field is optional.

All faults are alike here: a decoder answers `none`.
-/

namespace Switchboard.Json

/-- The number of arrays and objects that may lie inside one another along
anything that is read. -/
def depthLimit : Nat := 127

/-- **A reading of JSON values as values of `α`**, given the number of
containers that may still be opened. -/
abbrev Decoder (α : Type) := Nat → Json → Option α

/-- Reads a whole document. -/
def Decoder.run {α : Type} (d : Decoder α) (s : String) : Option α :=
  parse s >>= d depthLimit

/-- Reads a whole document that comes as bytes. -/
def Decoder.runBytes {α : Type} (d : Decoder α) (bs : List UInt8) : Option α :=
  parseBytes bs >>= d depthLimit

namespace Decoder

variable {α : Type}

/-- A string that denotes text. -/
def text : Decoder String
  | _, .str t => t
  | _, _ => none

/-- A truth value. -/
def bool : Decoder Bool
  | _, .bool b => some b
  | _, _ => none

/-- An integer, written as one, between two bounds. -/
def int (lo hi : Int) : Decoder Int
  | _, .int n => if lo ≤ n ∧ n ≤ hi then some n else none
  | _, _ => none

/-- A signed integer of 64 bits. -/
def int64 : Decoder Int := int Size.leastSigned64 Size.greatestSigned64

/-- A natural number below 256. -/
def byte : Decoder Nat := fun depth v => (int 0 255 depth v).map Int.toNat

/-- An array, item by item. -/
def list (d : Decoder α) : Decoder (List α)
  | depth + 1, .arr items => items.mapM (d depth)
  | _, _ => none

/-- One of several names, written as a string or as the only member of an
object, with the value `null`. -/
def choice (cases : List (String × α)) : Decoder α
  | _, .str (some t) => cases.lookup t
  | _ + 1, .obj [(some t, .null)] => cases.lookup t
  | _, _ => none

end Decoder

/-! ## Records -/

/-- **The fields found in a record**, by name, each at most once. -/
abbrev Fields := List (String × Json)

/-- The members of an object whose names are known. Every name has to be text,
and no known name may come twice. -/
def knownMembers? (names : List String) : List (Option String × Json) → Option Fields
  | [] => some []
  | (none, _) :: _ => none
  | (some k, v) :: rest =>
    if k ∈ names then
      (knownMembers? names rest) >>= fun found =>
        if (found.lookup k).isSome then none else some ((k, v) :: found)
    else knownMembers? names rest

/-- **The fields of a record** with the given names, of which the first `least`
must be present when the record is written as an array. -/
def fields? (names : List String) (least : Nat) : Json → Option Fields
  | .obj members => knownMembers? names members
  | .arr items =>
    if least ≤ items.length ∧ items.length ≤ names.length then some (names.zip items)
    else none
  | _ => none

namespace Fields

variable {α : Type}

/-- A field that must be present. -/
def required (fields : Fields) (name : String) (d : Decoder α) (depth : Nat) : Option α :=
  fields.lookup name >>= d depth

/-- A field that may be missing or `null`. -/
def optional (fields : Fields) (name : String) (d : Decoder α) (depth : Nat) :
    Option (Option α) :=
  match fields.lookup name with
  | none => some none
  | some .null => some none
  | some v => (d depth v).map some

/-- A field that may be missing, with the value it then has. -/
def withDefault (fields : Fields) (name : String) (default : α) (d : Decoder α) (depth : Nat) :
    Option α :=
  match fields.lookup name with
  | none => some default
  | some v => d depth v

end Fields

/-- **A record**: its fields, read by `build` with one container fewer. -/
def Decoder.record {α : Type} (names : List String) (least : Nat)
    (build : Nat → Fields → Option α) : Decoder α
  | depth + 1, v => fields? names least v >>= build depth
  | 0, _ => none

/-! ## Values read before it is known what they are -/

mutual

/-- **Whether a value can be held for later**, with `depth` containers allowed.
A value that must be held is read in full although its type is not yet known,
so all its strings must be text and its numbers must fit into a double. -/
def holdable (depth : Nat) : Json → Bool
  | .null => true
  | .bool _ => true
  | .int n => !exceedsDouble n.natAbs 0
  | .real d e => !exceedsDouble d e
  | .str t => t.isSome
  | .arr items => match depth with
    | 0 => false
    | depth + 1 => holdableItems depth items
  | .obj members => match depth with
    | 0 => false
    | depth + 1 => holdableMembers depth members

/-- Whether every item can be held. -/
def holdableItems (depth : Nat) : List Json → Bool
  | [] => true
  | v :: vs => holdable depth v && holdableItems depth vs

/-- Whether every member can be held, names included. -/
def holdableMembers (depth : Nat) : List (Option String × Json) → Bool
  | [] => true
  | (k, v) :: ms => k.isSome && holdable depth v && holdableMembers depth ms

end

end Switchboard.Json
