import Switchboard.Text.Blank
import Switchboard.Time.Calendar

/-!
# Points in time

A timestamp is a whole second of universal time and a fraction of it in
nanoseconds. The fraction of the last second of a minute may run on into a
leap second. Timestamps lie between the years -262143 and 262142.

A timestamp is written as RFC 3339 has it, with a fraction of 3, 6 or 9 digits
as needed, and none if it is zero. Years of other than four digits carry a
sign.
-/

namespace Switchboard

/-- **A point in time.** -/
structure Timestamp where
  /-- Seconds since the beginning of 1970. -/
  seconds : Int
  /-- Nanoseconds into the second; from 10⁹ on, into the leap second after it. -/
  nanos : Nat
deriving Repr, DecidableEq, Inhabited

namespace Timestamp

/-- The number of nanoseconds in a second. -/
def nanosPerSecond : Nat := 1000000000

/-- The number of seconds in a day. -/
def secondsPerDay : Nat := 86400

/-- The first second of the year -262143. -/
def earliest : Int := -8334601228800

/-- The last second of the year 262142. -/
def latest : Int := 8210266876799

/-- The point in time at a given second, if it lies within the years covered. -/
def ofSeconds? (seconds : Int) (nanos : Nat) : Option Timestamp :=
  if earliest ≤ seconds ∧ seconds ≤ latest then some ⟨seconds, nanos⟩ else none

/-- **The point in time a number of milliseconds after the beginning of 1970**,
if it lies within the years covered. -/
def ofMillis? (millis : Int) : Option Timestamp :=
  ofSeconds? (millis / 1000) ((millis % 1000).toNat * 1000000)

/-- The number of whole milliseconds since the beginning of 1970. -/
def toMillis (t : Timestamp) : Int := t.seconds * 1000 + t.nanos / 1000000

/-! ## Writing -/

/-- A number written with at least so many digits. -/
def digits (width n : Nat) : String :=
  let s := Nat.repr n
  String.ofList (List.replicate (width - s.length) '0') ++ s

/-- A year: four digits if they are enough, and else a sign before them. -/
def yearText (year : Int) : String :=
  if year < 0 then "-" ++ digits 4 year.natAbs
  else if year ≤ 9999 then digits 4 year.toNat
  else "+" ++ digits 4 year.toNat

/-- The fraction of a second in as few groups of three digits as it needs. -/
def fractionText (nanos : Nat) : String :=
  if nanos = 0 then ""
  else if nanos % 1000000 = 0 then "." ++ digits 3 (nanos / 1000000)
  else if nanos % 1000 = 0 then "." ++ digits 6 (nanos / 1000)
  else "." ++ digits 9 nanos

/-- Whether a point in time lies in a leap second. -/
def isLeap (t : Timestamp) : Bool := nanosPerSecond ≤ t.nanos

/-- The date of a point in time. -/
def dateText (t : Timestamp) : String :=
  let date := Date.ofDays (t.seconds / secondsPerDay)
  yearText date.year ++ "-" ++ digits 2 date.month ++ "-" ++ digits 2 date.day

/-- The time of day of a point in time, to the second. -/
def clockText (t : Timestamp) : String :=
  let clock := (t.seconds % secondsPerDay).toNat
  let second := clock % 60 + if t.isLeap then 1 else 0
  digits 2 (clock / 3600) ++ ":" ++ digits 2 (clock / 60 % 60) ++ ":" ++ digits 2 second

/-- **The text of a point in time**, with a given mark for universal time. -/
def textWith (zone : String) (t : Timestamp) : String :=
  t.dateText ++ "T" ++ t.clockText ++
    fractionText (if t.isLeap then t.nanos - nanosPerSecond else t.nanos) ++ zone

/-- The text with a `Z` for universal time. -/
def text (t : Timestamp) : String := t.textWith "Z"

/-- The text with a numeric offset from universal time. -/
def offsetText (t : Timestamp) : String := t.textWith "+00:00"

/-- The date and the time of day, for a user to read. -/
def plainText (t : Timestamp) : String := t.dateText ++ " " ++ t.clockText

end Timestamp

end Switchboard
