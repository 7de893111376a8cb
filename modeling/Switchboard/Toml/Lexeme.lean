import Switchboard.Json.Basic
import Switchboard.Size
import Switchboard.Text.Piece
import Switchboard.Time.Calendar

/-!
# The words of a configuration file

Blanks, comments, keys, strings, numbers, truth values and dates of TOML 1.0,
each as a piece of text.
-/

namespace Switchboard.Toml

open Text Text.Piece

/-! ## Characters -/

/-- A blank within a line. -/
def isSpace (c : Char) : Bool := c = ' ' || c = '\t'

/-- A character that may stand in a comment: no control character but the tab. -/
def isPrintable (c : Char) : Bool :=
  c = '\t' || (0x20 ≤ c.toNat && c.toNat ≤ 0x7E) || 0x80 ≤ c.toNat

/-- A character that stands for itself between double quotes. -/
def isBasic (c : Char) : Bool := isPrintable c && c ≠ '"' && c ≠ '\\'

/-- A character that stands for itself between single quotes. -/
def isLiteral (c : Char) : Bool := isPrintable c && c ≠ '\''

/-- A character that may stand in a key without quotes. -/
def isBare (c : Char) : Bool :=
  c.isDigit || ('a' ≤ c && c ≤ 'z') || ('A' ≤ c && c ≤ 'Z') || c = '_' || c = '-'

/-! ## Blanks -/

/-- The rest after any blanks within the line. -/
def skipSpaces (cs : List Char) : List Char := cs.dropWhile isSpace

/-- The end of a line. -/
def newline : Piece Unit
  | '\n' :: rest => some ((), rest)
  | '\r' :: '\n' :: rest => some ((), rest)
  | _ => none

/-- The rest after a comment, if there is one. -/
def skipComment : List Char → List Char
  | '#' :: rest => rest.dropWhile isPrintable
  | cs => cs

/-- The end of a line or of the file, after any blanks and a comment. -/
def lineEnd : Piece Unit := fun cs =>
  match skipComment (skipSpaces cs) with
  | [] => some ((), [])
  | rest => newline rest

/-- The rest after any blanks, ends of lines and comments that are followed by
the end of their line. -/
def skipLines : Nat → List Char → List Char
  | 0, cs => cs
  | fuel + 1, cs =>
    let cs := skipSpaces cs
    match newline (skipComment cs) with
    | some ((), rest) => skipLines fuel rest
    | none => cs

/-! ## Strings -/

/-- The value of some hexadecimal digits. -/
def hexNumber? (cs : List Char) : Option Nat :=
  cs.foldlM (fun n c => (hexValue? c).map (n * 16 + ·)) 0

/-- The character that some hexadecimal digits name. -/
def hexChar? (cs : List Char) : Option Char := do
  let n ← hexNumber? cs
  if n.isValidChar then some (Char.ofNat n) else none

/-- The character that a letter after a backslash stands for. -/
def escape? : Char → Option Char
  | 'b' => some '\x08'
  | 't' => some '\t'
  | 'n' => some '\n'
  | 'f' => some '\x0c'
  | 'r' => some '\r'
  | '"' => some '"'
  | '\\' => some '\\'
  | _ => none

/-- A character in front of a piece that goes on with the string. -/
def consTo (c : Char) (more : Option (List Char × List Char)) : Option (List Char × List Char) :=
  more.map fun (s, rest) => (c :: s, rest)

/-- What stands between double quotes on one line, and the closing quote. -/
def basicBody : List Char → Option (List Char × List Char)
  | '"' :: rest => some ([], rest)
  | '\\' :: 'u' :: a :: b :: c :: d :: rest =>
    match hexChar? [a, b, c, d] with
    | some x => consTo x (basicBody rest)
    | none => none
  | '\\' :: 'U' :: a :: b :: c :: d :: e :: f :: g :: h :: rest =>
    match hexChar? [a, b, c, d, e, f, g, h] with
    | some x => consTo x (basicBody rest)
    | none => none
  | '\\' :: e :: rest =>
    match escape? e with
    | some x => consTo x (basicBody rest)
    | none => none
  | c :: rest => if isBasic c then consTo c (basicBody rest) else none
  | [] => none

/-- What stands between single quotes on one line, and the closing quote. -/
def literalBody : List Char → Option (List Char × List Char)
  | '\'' :: rest => some ([], rest)
  | c :: rest => if isLiteral c then consTo c (literalBody rest) else none
  | [] => none

/-- The end of a string over several lines, at a run of quotes: three of them
close it, and up to two before those belong to it. -/
def closing? (quote : Char) (cs : List Char) : Option (List Char × List Char) :=
  let run := min 5 (cs.takeWhile (· = quote)).length
  if 3 ≤ run then some (List.replicate (run - 3) quote, cs.drop run) else none

/-- Whether nothing but blanks stands before the end of the line. -/
def endsLine (cs : List Char) : Bool := (newline (skipSpaces cs)).isSome

/-- What stands between triple double quotes, and the closing quotes. While
`joining`, blanks and ends of lines are left out. -/
def basicLines (joining : Bool) : List Char → Option (List Char × List Char)
  | '"' :: rest =>
    match closing? '"' ('"' :: rest) with
    | some done => some done
    | none => consTo '"' (basicLines false rest)
  | '\\' :: 'u' :: a :: b :: c :: d :: rest =>
    match hexChar? [a, b, c, d] with
    | some x => consTo x (basicLines false rest)
    | none => none
  | '\\' :: 'U' :: a :: b :: c :: d :: e :: f :: g :: h :: rest =>
    match hexChar? [a, b, c, d, e, f, g, h] with
    | some x => consTo x (basicLines false rest)
    | none => none
  | '\\' :: e :: rest =>
    if endsLine (e :: rest) then basicLines true (e :: rest)
    else match escape? e with
      | some x => consTo x (basicLines false rest)
      | none => none
  | '\r' :: '\n' :: rest =>
    if joining then basicLines true rest else consTo '\n' (basicLines false rest)
  | '\n' :: rest =>
    if joining then basicLines true rest else consTo '\n' (basicLines false rest)
  | c :: rest =>
    if joining && isSpace c then basicLines true rest
    else if isBasic c then consTo c (basicLines false rest)
    else none
  | [] => none

/-- What stands between triple single quotes, and the closing quotes. -/
def literalLines : List Char → Option (List Char × List Char)
  | '\'' :: rest =>
    match closing? '\'' ('\'' :: rest) with
    | some done => some done
    | none => consTo '\'' (literalLines rest)
  | '\r' :: '\n' :: rest => consTo '\n' (literalLines rest)
  | '\n' :: rest => consTo '\n' (literalLines rest)
  | c :: rest => if isLiteral c then consTo c (literalLines rest) else none
  | [] => none

/-- The rest after an end of line right behind opening quotes, if there is one. -/
def skipFirstNewline (cs : List Char) : List Char :=
  match newline cs with
  | some ((), rest) => rest
  | none => cs

/-- **A string** of any of the four kinds. -/
def stringPiece : Piece String := fun cs =>
  let body := match cs with
    | '"' :: '"' :: '"' :: rest => basicLines false (skipFirstNewline rest)
    | '"' :: rest => basicBody rest
    | '\'' :: '\'' :: '\'' :: rest => literalLines (skipFirstNewline rest)
    | '\'' :: rest => literalBody rest
    | _ => none
  body.map fun (s, rest) => (String.ofList s, rest)

/-! ## Keys -/

/-- One part of a key. -/
def keyPart : Piece String
  | '"' :: rest => (basicBody rest).map fun (s, rest) => (String.ofList s, rest)
  | '\'' :: rest => (literalBody rest).map fun (s, rest) => (String.ofList s, rest)
  | cs =>
    let s := cs.takeWhile isBare
    if s.isEmpty then none else some (String.ofList s, cs.drop s.length)

/-- The number of parts that a key stays below. -/
def keyLimit : Nat := 80

/-- **A key**: its last part and the parts before it, with dots between them. -/
def key : Nat → Piece (List String × String)
  | 0, _ => none
  | fuel + 1, cs => do
    let (part, cs) ← keyPart (skipSpaces cs)
    match skipSpaces cs with
    | '.' :: rest => do
      let ((parts, last), cs) ← key fuel rest
      some ((part :: parts, last), cs)
    | cs => some (([], part), cs)

/-! ## Numbers -/

/-- Digits with single underscores between them. -/
def digitRun (isDigit : Char → Bool) : List Char → Option (List Char × List Char)
  | c :: '_' :: rest =>
    if isDigit c then consTo c (digitRun isDigit rest) else none
  | c :: rest =>
    if isDigit c then
      match rest with
      | d :: _ => if isDigit d then consTo c (digitRun isDigit rest) else some ([c], rest)
      | [] => some ([c], [])
    else none
  | [] => none

/-- A sign, if there is one: whether it is a minus. -/
def signPiece : List Char → Bool × List Char
  | '+' :: rest => (false, rest)
  | '-' :: rest => (true, rest)
  | cs => (false, cs)

/-- The digits of a decimal integer, which has no needless zero in front. -/
def plainDigits : Piece (List Char)
  | '0' :: rest => some (['0'], rest)
  | cs => digitRun Char.isDigit cs

/-- An integer of 64 bits. -/
def fitting? (n : Int) : Option Int :=
  if Size.leastSigned64 ≤ n ∧ n ≤ Size.greatestSigned64 then some n else none

/-- The digits of a given base. -/
def isDigitOf (base : Nat) (c : Char) : Bool := (hexValue? c).any (· < base)

/-- An integer in another base, after its mark. -/
def based (base : Nat) : Piece Int := fun cs => do
  let (ds, rest) ← digitRun (isDigitOf base) cs
  let digits ← ds.mapM hexValue?
  let n ← fitting? (digits.foldl (fun n d => n * base + d) 0 : Nat)
  some (n, rest)

/-- **An integer.** -/
def integer : Piece Int
  | '0' :: 'x' :: rest => based 16 rest
  | '0' :: 'o' :: rest => based 8 rest
  | '0' :: 'b' :: rest => based 2 rest
  | cs => do
    let (minus, cs) := signPiece cs
    let (ds, rest) ← plainDigits cs
    let n ← fitting? (if minus then -(decimalValue ds : Int) else decimalValue ds)
    some (n, rest)

/-- The exponent of a number. -/
def exponent : Piece Int := fun cs =>
  match cs with
  | c :: rest =>
    if c = 'e' ∨ c = 'E' then do
      let (minus, rest) := signPiece rest
      let (ds, rest) ← digitRun Char.isDigit rest
      some (if minus then -(decimalValue ds : Int) else decimalValue ds, rest)
    else none
  | [] => none

/-- What follows the point of a number, with an exponent if there is one. -/
def fractionPart : Piece (List Char × Int)
  | '.' :: rest => do
    let (ds, rest) ← digitRun Char.isDigit rest
    match rest with
    | c :: _ =>
      if c = 'e' ∨ c = 'E' then do
        let (e, rest) ← exponent rest
        some ((ds, e), rest)
      else some ((ds, 0), rest)
    | [] => some ((ds, 0), rest)
  | cs => do
    let (e, rest) ← exponent cs
    some (([], e), rest)

/-- **A number that is no integer.** Only that it is one matters; one that is too
large for a double is refused unless it is negative. -/
def real : Piece Json := fun cs => do
  let (minus, cs) := signPiece cs
  match cs with
  | 'i' :: 'n' :: 'f' :: rest => some (.real 0 0, rest)
  | 'n' :: 'a' :: 'n' :: rest => some (.real 0 0, rest)
  | _ => do
    let (ds, cs) ← plainDigits cs
    let ((fs, e), rest) ← fractionPart cs
    if !minus && Json.exceedsDouble (decimalValue (ds ++ fs)) (e - fs.length) then none
    else some (.real 0 0, rest)

/-! ## Dates -/

/-- A time of day. -/
def timeOfDay : Piece Unit := fun cs => do
  let (hour, cs) ← number 2 2 cs
  let ((), cs) ← mark ':' cs
  let (minute, cs) ← number 2 2 cs
  let ((), cs) ← mark ':' cs
  let (second, cs) ← number 2 2 cs
  if hour < 24 ∧ minute < 60 ∧ second ≤ 60 then
    match cs with
    | '.' :: rest =>
      let ds := rest.takeWhile Char.isDigit
      if ds.isEmpty then none else some ((), rest.drop ds.length)
    | _ => some ((), cs)
  else none

/-- The offset of a time, if there is one; the rest after it. -/
def skipOffset : List Char → Option (List Char)
  | 'Z' :: rest => some rest
  | 'z' :: rest => some rest
  | c :: rest =>
    if c = '+' ∨ c = '-' then do
      let (hour, cs) ← number 2 2 rest
      let ((), cs) ← mark ':' cs
      let (minute, cs) ← number 2 2 cs
      if hour < 24 ∧ minute < 60 then some cs else none
    else some (c :: rest)
  | [] => some []

/-- A day of the calendar. -/
def calendarDay : Piece Unit := fun cs => do
  let (year, cs) ← number 4 4 cs
  let ((), cs) ← mark '-' cs
  let (month, cs) ← number 2 2 cs
  let ((), cs) ← mark '-' cs
  let (day, cs) ← number 2 2 cs
  if (Date.mk year month day).Exists then some ((), cs) else none

/-- **A date**, a time, or both. A date is kept as an object with one member that
nobody looks for. -/
def date : Piece Json := fun cs =>
  let kept : Json := .obj [(some "$date", .text "")]
  match calendarDay cs with
  | some ((), rest) =>
    match rest with
    | c :: after =>
      if c = 'T' ∨ c = 't' ∨ c = ' ' then
        match timeOfDay after with
        | some ((), after) => (skipOffset after).map fun after => (kept, after)
        | none => some (kept, rest)
      else some (kept, rest)
    | [] => some (kept, rest)
  | none => (timeOfDay cs).map fun ((), rest) => (kept, rest)

end Switchboard.Toml
