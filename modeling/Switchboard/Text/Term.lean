import Switchboard.Text.Quoted

/-!
# Terms

A term shows a value by the name of its kind and what it is made of, for those
who look into what went wrong. It stands on one line, and texts in it are
quoted.
-/

namespace Switchboard.Text

/-- **A term.** -/
inductive Term where
  /-- A number. -/
  | number (n : Int)
  /-- A text. -/
  | text (s : String)
  /-- A name with nothing to it. -/
  | name (s : String)
  /-- A name applied to a term. -/
  | applied (s : String) (arg : Term)
  /-- A name with named parts. -/
  | record (s : String) (parts : List (String × Term))
deriving Repr

mutual

/-- **The text of a term.** -/
def Term.print : Term → String
  | .number n => toString n
  | .text s => quoted s
  | .name s => s
  | .applied s arg => s ++ "(" ++ arg.print ++ ")"
  | .record s parts => s ++ " \x7b " ++ printParts parts ++ " \x7d"

/-- The text of named parts. -/
def printParts : List (String × Term) → String
  | [] => ""
  | [(k, t)] => k ++ ": " ++ t.print
  | (k, t) :: rest => k ++ ": " ++ t.print ++ ", " ++ printParts rest

end

end Switchboard.Text
