/-!
# JSON values

A JSON value is kept the way a strict reader needs to see it. Object members
stay in the order in which they were written and a name may occur twice,
because whether that is a fault depends on who reads the object. A number
remembers whether it was written as an integer, because integer fields accept
nothing else. A string is the Unicode text it denotes, or no text at all when
one of its escapes leaves a surrogate without its partner, or one of its bytes
belongs to no character: such a string is harmless as long as nobody asks what
it says.

`Json.parse` (in `Json.Reader`) reads exactly the grammar of RFC 8259, and
`Json.compact` and `Json.pretty` (in `Json.Printer`) write it.
-/

namespace Switchboard

/-- **A JSON value** as it was written. -/
inductive Json where
  /-- The literal `null`. -/
  | null
  /-- The literals `true` and `false`. -/
  | bool (b : Bool)
  /-- A number written without fraction and exponent, other than `-0`. -/
  | int (n : Int)
  /-- Any other number: `digits · 10 ^ exponent`, up to its sign. -/
  | real (digits : Nat) (exponent : Int)
  /-- A string; `none` when something in it keeps it from being text. -/
  | str (text : Option String)
  /-- An array. -/
  | arr (items : List Json)
  /-- An object with its members in order. -/
  | obj (members : List (Option String × Json))
deriving Repr, Inhabited, BEq

namespace Json

/-- The string that denotes a given text. -/
abbrev text (s : String) : Json := .str (some s)

/-- The number that denotes a natural number. -/
abbrev nat (n : Nat) : Json := .int n

/-- The array of the images of a list. -/
def ofList {α : Type} (f : α → Json) (xs : List α) : Json := .arr (xs.map f)

/-- The object with the given members, all of them named by proper text. -/
def record (members : List (String × Json)) : Json :=
  .obj (members.map fun m => (some m.1, m.2))

/-- **The largest magnitude a double can hold**, rounding included: from
`2 ^ 1024 - 2 ^ 970` on, the nearest double would be infinite. -/
def overflowThreshold : Nat := Nat.pow 2 1024 - Nat.pow 2 970

/-- Whether `digits · 10 ^ exponent` is too large for a double. The number of
digits settles it except close to the threshold, so that an exponent of many
digits is never raised to. -/
def exceedsDouble (digits : Nat) (exponent : Int) : Bool :=
  if digits = 0 then false
  else
    let size := (Nat.repr digits).length + exponent
    if size > 310 then true
    else if size < 308 then false
    else if exponent ≥ 0 then overflowThreshold ≤ digits * Nat.pow 10 exponent.toNat
    else overflowThreshold * Nat.pow 10 (-exponent).toNat ≤ digits

end Json

end Switchboard
