import Switchboard.Text.Digit

/-!
# Reading a text piece by piece

A `Piece` reads something at the beginning of a text and answers what it read
together with the rest of the text, or nothing at all if the text does not
begin as it should. Pieces are put together in the `Option` monad, so the rest
that one leaves is handed to the next.
-/

namespace Switchboard.Text

/-- **A reading of the beginning of a text.** -/
abbrev Piece (α : Type) := List Char → Option (α × List Char)

namespace Piece

/-- A number of at least `least` and at most `most` digits; it takes as many as
it can. -/
def number (least most : Nat) : Piece Nat := fun cs =>
  let ds := (cs.take most).takeWhile Char.isDigit
  if least ≤ ds.length then some (decimalValue ds, cs.drop ds.length) else none

/-- A given character. -/
def mark (c : Char) : Piece Unit
  | d :: rest => if d = c then some ((), rest) else none
  | [] => none

/-- A given text. -/
def word (w : List Char) : Piece Unit := fun cs =>
  if w.isPrefixOf cs then some ((), cs.drop w.length) else none

/-- The first of two pieces that can be read. -/
def either {α : Type} (p q : Piece α) : Piece α := fun cs => (p cs).orElse fun _ => q cs

end Piece

end Switchboard.Text
