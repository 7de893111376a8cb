import Switchboard.Json.Basic
import Switchboard.Text.Digit
import Switchboard.Text.Utf8

/-!
# JSON tokens

The text of a JSON document is cut into punctuation, strings and bare words by
a scanner that sees one character at a time, `Scan.step`. A bare word is a
maximal run of characters that are neither blank, nor a quote, nor
punctuation; it is a token only if it is one of the three literals or a number
(`Token.ofWord?`). Cutting at the longest word loses nothing, since two words
never follow one another in a JSON text without something between them.

Strings are read piece by piece: a character stands for itself, an escape
`\uXXXX` for a UTF-16 code unit. The pieces are put together afterwards
(`Piece.decode?`), where a high surrogate needs a low one right behind it.

What is to be read may come as bytes (`Text.characters`). A byte that belongs to
no character may stand in a string, and nowhere else (`Scan.stepStray`); such a
string denotes no text.
-/

namespace Switchboard.Json

/-- **A token** of a JSON text. -/
inductive Token where
  /-- An opening square bracket. -/
  | openArray
  /-- A closing square bracket. -/
  | closeArray
  /-- An opening curly bracket. -/
  | openObject
  /-- A closing curly bracket. -/
  | closeObject
  /-- A comma. -/
  | comma
  /-- A colon. -/
  | colon
  /-- A string, with the text it denotes if it denotes one. -/
  | quoted (text : Option String)
  /-- A literal or a number, as the value it denotes. -/
  | word (value : Json)
deriving Repr, BEq

/-! ## Numbers and literals -/

/-- The exponent part of a number: empty, or `e`, an optional sign and at least
one digit. -/
def exponent? : List Char → Option Int
  | [] => some 0
  | e :: rest =>
    if e = 'e' ∨ e = 'E' then
      let (negative, ds) := match rest with
        | '-' :: r => (true, r)
        | '+' :: r => (false, r)
        | r => (false, r)
      if ds ≠ [] ∧ ds.all Char.isDigit then
        some (if negative then -(Text.decimalValue ds : Int) else Text.decimalValue ds)
      else none
    else none

/-- What follows the integer part of a number that is not an integer: a
fraction, an exponent, or both. `whole` are the digits before it. -/
def realTail? (whole : List Char) : List Char → Option Json
  | '.' :: rest =>
    let fraction := rest.takeWhile Char.isDigit
    if fraction = [] then none
    else (exponent? (rest.dropWhile Char.isDigit)).map fun e =>
      .real (Text.decimalValue (whole ++ fraction)) (e - fraction.length)
  | rest => (exponent? rest).map fun e => .real (Text.decimalValue whole) e

/-- A number without its sign. No digit may follow a leading zero. -/
def unsigned? (negative : Bool) (cs : List Char) : Option Json :=
  let whole := cs.takeWhile Char.isDigit
  let rest := cs.dropWhile Char.isDigit
  if whole = [] ∨ (whole.head? = some '0' ∧ whole ≠ ['0']) then none
  else if rest = [] then
    let n := Text.decimalValue whole
    if negative then some (if n = 0 then .real 0 0 else .int (-n)) else some (.int n)
  else realTail? whole rest

/-- **A number** by the grammar of JSON. -/
def number? : List Char → Option Json
  | '-' :: rest => unsigned? true rest
  | cs => unsigned? false cs

/-- The literal or number that a bare word spells. -/
def Token.ofWord? (cs : List Char) : Option Token :=
  if cs = ['n', 'u', 'l', 'l'] then some (.word .null)
  else if cs = ['t', 'r', 'u', 'e'] then some (.word (.bool true))
  else if cs = ['f', 'a', 'l', 's', 'e'] then some (.word (.bool false))
  else (number? cs).map .word

/-! ## Strings -/

/-- A piece of a string. -/
inductive Piece where
  /-- A character, written as itself or by an escape. -/
  | char (c : Char)
  /-- A high surrogate, written by an escape. -/
  | high (unit : Nat)
  /-- A low surrogate, written by an escape. -/
  | low (unit : Nat)
  /-- A byte that belongs to no character. -/
  | stray
deriving Repr, BEq

/-- The piece that the code unit of an escape `\uXXXX` stands for. -/
def Piece.ofUnit (unit : Nat) : Piece :=
  if 0xD800 ≤ unit ∧ unit < 0xDC00 then .high unit
  else if 0xDC00 ≤ unit ∧ unit < 0xE000 then .low unit
  else .char (Char.ofNat unit)

/-- **The characters that pieces denote.** Surrogates count only in pairs, a
high one directly before a low one, and stray bytes not at all. -/
def Piece.decode? : List Piece → Option (List Char)
  | [] => some []
  | .char c :: rest => (decode? rest).map (c :: ·)
  | .high h :: .low l :: rest =>
    (decode? rest).map
      (Char.ofNat (0x10000 + (h - 0xD800) * 0x400 + (l - 0xDC00)) :: ·)
  | .high _ :: _ => none
  | .low _ :: _ => none
  | .stray :: _ => none

/-- The character that a one-letter escape stands for. -/
def escaped? (c : Char) : Option Char :=
  match c with
  | '"' => some '"'
  | '\\' => some '\\'
  | '/' => some '/'
  | 'b' => some '\x08'
  | 'f' => some '\x0c'
  | 'n' => some '\n'
  | 'r' => some '\r'
  | 't' => some '\t'
  | _ => none

/-! ## The scanner -/

/-- The four blanks of JSON. -/
def isBlank (c : Char) : Bool :=
  c = ' ' || c = '\t' || c = '\n' || c = '\r'

/-- The punctuation token that a character is. -/
def punctuation? (c : Char) : Option Token :=
  match c with
  | '[' => some .openArray
  | ']' => some .closeArray
  | '\x7b' => some .openObject
  | '\x7d' => some .closeObject
  | ',' => some .comma
  | ':' => some .colon
  | _ => none

/-- Where the scanner stands. Lists are reversed: the last character first. -/
inductive Scan.Mode where
  /-- Between tokens. -/
  | outside
  /-- Inside a bare word. -/
  | inWord (read : List Char)
  /-- Inside a string. -/
  | inText (read : List Piece)
  /-- Behind the backslash of an escape. -/
  | inEscape (read : List Piece)
  /-- Behind `\u` and `count` of its four digits, which make up `value`. -/
  | inUnit (read : List Piece) (count value : Nat)
deriving Repr

/-- **The state of the scanner**: where it stands and the tokens already cut
off, the last one first. -/
structure Scan where
  /-- Where the scanner stands. -/
  mode : Scan.Mode
  /-- The tokens read so far, reversed. -/
  tokens : List Token
deriving Repr

namespace Scan

/-- The scanner before the first character. -/
def start : Scan := ⟨.outside, []⟩

/-- A character outside strings and words. -/
def outside (tokens : List Token) (c : Char) : Scan :=
  if isBlank c then ⟨.outside, tokens⟩
  else if c = '"' then ⟨.inText [], tokens⟩
  else match punctuation? c with
    | some t => ⟨.outside, t :: tokens⟩
    | none => ⟨.inWord [c], tokens⟩

/-- Whether a character ends a bare word. -/
def endsWord (c : Char) : Bool :=
  isBlank c || c = '"' || (punctuation? c).isSome

/-- **One character.** `none` when no JSON text goes on like this. -/
def step (s : Scan) (c : Char) : Option Scan :=
  match s.mode with
  | .outside => some (outside s.tokens c)
  | .inWord read =>
    if endsWord c then
      (Token.ofWord? read.reverse).map fun t => outside (t :: s.tokens) c
    else some { s with mode := .inWord (c :: read) }
  | .inText read =>
    if c = '"' then
      some ⟨.outside, .quoted ((Piece.decode? read.reverse).map String.ofList) :: s.tokens⟩
    else if c = '\\' then some { s with mode := .inEscape read }
    else if c.toNat < 0x20 then none
    else some { s with mode := .inText (.char c :: read) }
  | .inEscape read =>
    if c = 'u' then some { s with mode := .inUnit read 0 0 }
    else (escaped? c).map fun e => { s with mode := .inText (.char e :: read) }
  | .inUnit read count value =>
    (Text.hexValue? c).map fun d =>
      if count = 3 then { s with mode := .inText (Piece.ofUnit (16 * value + d) :: read) }
      else { s with mode := .inUnit read (count + 1) (16 * value + d) }

/-- **One byte that belongs to no character.** -/
def stepStray (s : Scan) : Option Scan :=
  match s.mode with
  | .inText read => some { s with mode := .inText (.stray :: read) }
  | _ => none

/-- **One character, or one byte that belongs to none.** -/
def stepEither (s : Scan) : Option Char → Option Scan
  | some c => s.step c
  | none => s.stepStray

/-- The tokens at the end of the text, in order. A word may end with the text,
a string may not. -/
def finish? (s : Scan) : Option (List Token) :=
  match s.mode with
  | .outside => some s.tokens.reverse
  | .inWord read => (Token.ofWord? read.reverse).map fun t => (t :: s.tokens).reverse
  | _ => none

end Scan

/-- **The tokens of a text**, or `none` if it cannot be cut into tokens. -/
def tokens? (cs : List Char) : Option (List Token) :=
  (cs.foldlM Scan.step Scan.start) >>= Scan.finish?

/-- The tokens of bytes, or `none` if they cannot be cut into tokens. -/
def tokensOfBytes? (bs : List UInt8) : Option (List Token) :=
  ((Text.characters bs).foldlM Scan.stepEither Scan.start) >>= Scan.finish?

end Switchboard.Json
