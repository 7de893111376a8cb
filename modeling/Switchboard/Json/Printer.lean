import Switchboard.Json.Basic
import Switchboard.Text.Digit

/-!
# Writing JSON

`compact` writes a value without any blanks, `pretty` one item per line with
two blanks per level and empty containers as `[]` and `\x7b\x7d`. Both share
the spelling of scalars: strings escape the quote, the backslash and control
characters and nothing else, with the one-letter escape where there is one.

Every value has a spelling: a string that denotes no text is written as a lone
surrogate, and a number that is no integer by its digits and exponent.
-/

namespace Switchboard.Json

/-- **How a character is written inside a string.** -/
def escapeChar (c : Char) : List Char :=
  if c = '"' then ['\\', '"']
  else if c = '\\' then ['\\', '\\']
  else if c = '\x08' then ['\\', 'b']
  else if c = '\x0c' then ['\\', 'f']
  else if c = '\n' then ['\\', 'n']
  else if c = '\r' then ['\\', 'r']
  else if c = '\t' then ['\\', 't']
  else if c.toNat < 0x20 then
    ['\\', 'u', '0', '0', Text.hexDigit (c.toNat / 16), Text.hexDigit (c.toNat % 16)]
  else [c]

/-- A string in quotes. -/
def quotedChars : Option String → List Char
  | some s => '"' :: s.toList.flatMap escapeChar ++ ['"']
  | none => ['"', '\\', 'u', 'd', '8', '0', '0', '"']

/-- An integer in decimal. -/
def intChars (n : Int) : List Char :=
  if n < 0 then '-' :: (Nat.repr n.natAbs).toList else (Nat.repr n.natAbs).toList

/-! ## Without blanks -/

mutual

/-- The characters of a value, without blanks. -/
def compactChars : Json → List Char
  | .null => ['n', 'u', 'l', 'l']
  | .bool true => ['t', 'r', 'u', 'e']
  | .bool false => ['f', 'a', 'l', 's', 'e']
  | .int n => intChars n
  | .real d e => intChars d ++ 'e' :: intChars e
  | .str t => quotedChars t
  | .arr [] => ['[', ']']
  | .arr (v :: vs) => '[' :: compactChars v ++ compactItems vs
  | .obj [] => ['\x7b', '\x7d']
  | .obj ((k, v) :: ms) =>
    '\x7b' :: quotedChars k ++ ':' :: compactChars v ++ compactMembers ms

/-- The further items of an array and its end. -/
def compactItems : List Json → List Char
  | [] => [']']
  | v :: vs => ',' :: compactChars v ++ compactItems vs

/-- The further members of an object and its end. -/
def compactMembers : List (Option String × Json) → List Char
  | [] => ['\x7d']
  | (k, v) :: ms => ',' :: quotedChars k ++ ':' :: compactChars v ++ compactMembers ms

end

/-- **A value on one line without blanks.** -/
def compact (v : Json) : String := String.ofList (compactChars v)

/-! ## One item per line -/

/-- The start of a line at a level. -/
def newline (level : Nat) : List Char := '\n' :: List.replicate (2 * level) ' '

mutual

/-- The characters of a value that starts at a level. -/
def prettyChars (level : Nat) : Json → List Char
  | .null => ['n', 'u', 'l', 'l']
  | .bool true => ['t', 'r', 'u', 'e']
  | .bool false => ['f', 'a', 'l', 's', 'e']
  | .int n => intChars n
  | .real d e => intChars d ++ 'e' :: intChars e
  | .str t => quotedChars t
  | .arr [] => ['[', ']']
  | .arr (v :: vs) =>
    '[' :: newline (level + 1) ++ prettyChars (level + 1) v ++ prettyItems level vs
  | .obj [] => ['\x7b', '\x7d']
  | .obj ((k, v) :: ms) =>
    '\x7b' :: newline (level + 1) ++ quotedChars k ++ ':' :: ' ' ::
      prettyChars (level + 1) v ++ prettyMembers level ms

/-- The further items of an array that starts at a level, and its end. -/
def prettyItems (level : Nat) : List Json → List Char
  | [] => newline level ++ [']']
  | v :: vs =>
    ',' :: newline (level + 1) ++ prettyChars (level + 1) v ++ prettyItems level vs

/-- The further members of an object that starts at a level, and its end. -/
def prettyMembers (level : Nat) : List (Option String × Json) → List Char
  | [] => newline level ++ ['\x7d']
  | (k, v) :: ms =>
    ',' :: newline (level + 1) ++ quotedChars k ++ ':' :: ' ' ::
      prettyChars (level + 1) v ++ prettyMembers level ms

end

/-- **A value over several lines**, two blanks per level. -/
def pretty (v : Json) : String := String.ofList (prettyChars 0 v)

end Switchboard.Json
