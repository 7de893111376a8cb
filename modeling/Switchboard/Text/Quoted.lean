import Switchboard.Text.Shown

/-!
# Quoted texts

A quoted text stands between double quotes, on one line, and shows every
character it holds: those that would end it, break the line or leave no mark
are written with a backslash.
-/

namespace Switchboard.Text

/-- A number in base 16, with lower-case digits. -/
def hexadecimal (n : Nat) : String := String.ofList (Nat.toDigits 16 n)

/-- **How a character is written inside quotes.** -/
def quotedChar (c : Char) : String :=
  if c = '"' then "\\\""
  else if c = '\\' then "\\\\"
  else if c = '\n' then "\\n"
  else if c = '\r' then "\\r"
  else if c = '\t' then "\\t"
  else if c.toNat = 0 then "\\0"
  else if isShown c then c.toString
  else "\\u\x7b" ++ hexadecimal c.toNat ++ "\x7d"

/-- **A text between quotes.** -/
def quoted (s : String) : String :=
  s.toList.foldl (fun out c => out ++ quotedChar c) "\"" ++ "\""

end Switchboard.Text
