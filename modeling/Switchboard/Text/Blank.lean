/-!
# Blank characters

The characters that Unicode calls white space, and cutting them off at the
ends of a text. The zero-width space and the byte order mark are not among
them.
-/

namespace Switchboard.Text

/-- **Whether a character has the Unicode property White_Space.** -/
def isBlank (c : Char) : Bool :=
  let n := c.toNat
  (0x09 ≤ n && n ≤ 0x0D) || n == 0x20 || n == 0x85 || n == 0xA0 || n == 0x1680 ||
    (0x2000 ≤ n && n ≤ 0x200A) || n == 0x2028 || n == 0x2029 || n == 0x202F ||
    n == 0x205F || n == 0x3000

/-- Drops the longest run of characters with a property from the end. -/
def dropEndWhile (p : Char → Bool) (cs : List Char) : List Char :=
  (cs.reverse.dropWhile p).reverse

/-- The characters between the first and the last that are not blank. -/
def trimmed (cs : List Char) : List Char :=
  dropEndWhile isBlank (cs.dropWhile isBlank)

/-- **A text without the blanks at its ends.** -/
def trim (s : String) : String := String.ofList (trimmed s.toList)

/-- Whether a text has no characters other than blanks. -/
def isAllBlank (s : String) : Bool := s.toList.all isBlank

/-- A text filled up with spaces on the right to a number of characters. -/
def padRight (width : Nat) (s : String) : String :=
  s ++ String.ofList (List.replicate (width - s.length) ' ')

/-- A text filled up with spaces on the left to a number of characters. -/
def padLeft (width : Nat) (s : String) : String :=
  String.ofList (List.replicate (width - s.length) ' ') ++ s

end Switchboard.Text
