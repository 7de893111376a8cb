import Switchboard.Text.Piece
import Switchboard.Time.Timestamp

/-!
# Reading points in time

Two readers for two places. `Timestamp.ofRecord?` reads what the journal
keeps: RFC 3339 to the letter, with four-digit years. `Timestamp.ofText?` reads
what a document may say: numbers may be shorter, blanks may stand around them,
and years may have a sign and any number of digits.

Both let a blank or a small `t` stand for the `T`, take the sixtieth second of
any minute for a leap second, and forget what a fraction says beyond its ninth
digit.
-/

namespace Switchboard

namespace Timestamp

open Text Text.Piece

/-- **The parts that a text names**, before it is known whether they exist. -/
structure Parts where
  /-- The date. -/
  date : Date
  /-- The hour of the day. -/
  hour : Nat
  /-- The minute of the hour. -/
  minute : Nat
  /-- The second of the minute; 60 is a leap second. -/
  second : Nat
  /-- Nanoseconds into the second. -/
  nanos : Nat
  /-- Minutes by which the clock is ahead of universal time. -/
  offset : Int
deriving Repr, DecidableEq

/-- **The point in time that some parts name**, if there is one. Offsets stay
below a day. -/
def Parts.toTimestamp? (p : Parts) : Option Timestamp :=
  if p.date.Exists ∧ p.hour < 24 ∧ p.minute < 60 ∧ p.second ≤ 60 ∧ p.offset.natAbs < 24 * 60 then
    let leap := p.second = 60
    let second := if leap then 59 else p.second
    let nanos := if leap then p.nanos + nanosPerSecond else p.nanos
    let onClock := p.date.toDays * secondsPerDay + (p.hour * 3600 + p.minute * 60 + second : Nat)
    if earliest ≤ onClock ∧ onClock ≤ latest then ofSeconds? (onClock - p.offset * 60) nanos
    else none
  else none

/-! ## Pieces -/

/-- What stands between date and time. -/
def divider : Piece Unit
  | c :: rest => if c = 't' ∨ c = 'T' ∨ c = ' ' then some ((), rest) else none
  | [] => none

/-- A fraction, if a point follows, in nanoseconds. -/
def fraction : Piece Nat
  | '.' :: rest =>
    let ds := rest.takeWhile Char.isDigit
    let kept := ds.take 9
    if ds = [] then none
    else some (Text.decimalValue kept * Nat.pow 10 (9 - kept.length), rest.drop ds.length)
  | cs => some (0, cs)

/-- The sign of an offset. -/
def sign : Piece Int
  | '+' :: rest => some (1, rest)
  | '-' :: rest => some (-1, rest)
  | '−' :: rest => some (-1, rest)
  | _ => none

/-- **An offset from universal time** in minutes: `Z`, or hours and minutes with
a separator between them. -/
def offset (separator : Piece Unit) : Piece Int
  | 'Z' :: rest => some (0, rest)
  | 'z' :: rest => some (0, rest)
  | cs => do
    let (direction, cs) ← sign cs
    let (hours, cs) ← number 2 2 cs
    let ((), cs) ← separator cs
    let (minutes, cs) ← number 2 2 cs
    if minutes < 60 then some (direction * (hours * 60 + minutes : Nat), cs) else none

/-- Nothing, after any blanks. -/
def skipBlanks (cs : List Char) : List Char := cs.dropWhile Text.isBlank

/-! ## To the letter -/

/-- Reads RFC 3339. -/
def strictParts : Piece Parts := fun cs => do
  let (year, cs) ← number 4 4 cs
  let ((), cs) ← mark '-' cs
  let (month, cs) ← number 2 2 cs
  let ((), cs) ← mark '-' cs
  let (day, cs) ← number 2 2 cs
  let ((), cs) ← divider cs
  let (hour, cs) ← number 2 2 cs
  let ((), cs) ← mark ':' cs
  let (minute, cs) ← number 2 2 cs
  let ((), cs) ← mark ':' cs
  let (second, cs) ← number 2 2 cs
  let (nanos, cs) ← fraction cs
  let (offset, cs) ← offset (mark ':') cs
  some (⟨⟨year, month, day⟩, hour, minute, second, nanos, offset⟩, cs)

/-- **The point in time that a text writes**, by RFC 3339. -/
def ofRecord? (s : String) : Option Timestamp :=
  match strictParts s.toList with
  | some (p, []) => p.toTimestamp?
  | _ => none

/-! ## With allowances -/

/-- A year, which may have a sign and then any number of digits. -/
def looseYear : Piece Int := fun cs =>
  match skipBlanks cs with
  | '-' :: rest => do
    let (n, cs) ← number 1 rest.length rest
    some (-(n : Int), cs)
  | '+' :: rest => do
    let (n, cs) ← number 1 rest.length rest
    some ((n : Int), cs)
  | cs => do
    let (n, cs) ← number 1 4 cs
    some ((n : Int), cs)

/-- A number of one or two digits, after any blanks. -/
def loosePair : Piece Nat := fun cs => number 1 2 (skipBlanks cs)

/-- A given character, after any blanks. -/
def looseMark (c : Char) : Piece Unit := fun cs => mark c (skipBlanks cs)

/-- Any number of colons and blanks. -/
def colonsAndBlanks : Piece Unit := fun cs =>
  some ((), cs.dropWhile fun c => c = ':' || Text.isBlank c)

/-- An offset, or the letters `UTC`, after any blanks. -/
def looseOffset : Piece Int := fun cs =>
  let cs := skipBlanks cs
  if (cs.take 3).map Char.toUpper = ['U', 'T', 'C'] then some (0, cs.drop 3)
  else offset colonsAndBlanks cs

/-- Reads RFC 3339 with allowances. -/
def looseParts : Piece Parts := fun cs => do
  let (year, cs) ← looseYear cs
  let ((), cs) ← looseMark '-' cs
  let (month, cs) ← loosePair cs
  let ((), cs) ← looseMark '-' cs
  let (day, cs) ← loosePair cs
  let ((), cs) ← divider cs
  let (hour, cs) ← loosePair cs
  let ((), cs) ← looseMark ':' cs
  let (minute, cs) ← loosePair cs
  let ((), cs) ← looseMark ':' cs
  let (second, cs) ← loosePair cs
  let (nanos, cs) ← fraction cs
  let (offset, cs) ← looseOffset cs
  some (⟨⟨year, month, day⟩, hour, minute, second, nanos, offset⟩, cs)

/-- **The point in time that a text writes**, with allowances. -/
def ofText? (s : String) : Option Timestamp :=
  match looseParts s.toList with
  | some (p, rest) => if rest.all Text.isBlank then p.toTimestamp? else none
  | none => none

end Timestamp

end Switchboard
