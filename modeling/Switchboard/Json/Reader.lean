import Switchboard.Json.Token

/-!
# Reading JSON

The tokens of a document are put together by a machine with a stack of the
containers that are still open, so that nesting costs no recursion and has no
limit of its own: how deep a document may go is a matter of what is read from
it (`Json.Decode`). `Reader.step` takes one token; a text is a document when
the machine ends outside every container with exactly one value
(`Reader.result?`).
-/

namespace Switchboard.Json

/-- **An open container** and what it holds so far, the last item first. -/
inductive Reader.Frame where
  /-- An array. -/
  | array (items : List Json)
  /-- An object in which the value of `key` is being read. -/
  | object (members : List (Option String × Json)) (key : Option String)
deriving Repr

/-- **What the reader expects next.** -/
inductive Reader where
  /-- A value. -/
  | value (stack : List Reader.Frame)
  /-- The first item of an array, or its end. -/
  | firstItem (stack : List Reader.Frame)
  /-- The first name in an object, or its end. -/
  | firstName (stack : List Reader.Frame)
  /-- A further name in an object with these members. -/
  | name (stack : List Reader.Frame) (members : List (Option String × Json))
  /-- The colon behind a name. -/
  | colon (stack : List Reader.Frame) (members : List (Option String × Json))
      (key : Option String)
  /-- What may follow a value: a comma, the end of its container, or the end. -/
  | after (stack : List Reader.Frame) (value : Json)
deriving Repr

namespace Reader

/-- The reader before the first token. -/
def start : Reader := .value []

/-- A token where a value is expected. -/
def beginValue (stack : List Frame) : Token → Option Reader
  | .quoted t => some (.after stack (.str t))
  | .word v => some (.after stack v)
  | .openArray => some (.firstItem stack)
  | .openObject => some (.firstName stack)
  | _ => none

/-- A token behind a complete value. -/
def afterValue : List Frame → Json → Token → Option Reader
  | .array items :: stack, v, .comma => some (.value (.array (v :: items) :: stack))
  | .array items :: stack, v, .closeArray => some (.after stack (.arr (v :: items).reverse))
  | .object members key :: stack, v, .comma => some (.name stack ((key, v) :: members))
  | .object members key :: stack, v, .closeObject =>
    some (.after stack (.obj ((key, v) :: members).reverse))
  | _, _, _ => none

/-- **One token.** `none` when no document goes on like this. -/
def step : Reader → Token → Option Reader
  | .value stack, t => beginValue stack t
  | .firstItem stack, .closeArray => some (.after stack (.arr []))
  | .firstItem stack, t => beginValue (.array [] :: stack) t
  | .firstName stack, .closeObject => some (.after stack (.obj []))
  | .firstName stack, .quoted k => some (.colon stack [] k)
  | .firstName _, _ => none
  | .name stack members, .quoted k => some (.colon stack members k)
  | .name _ _, _ => none
  | .colon stack members k, .colon => some (.value (.object members k :: stack))
  | .colon _ _ _, _ => none
  | .after stack v, t => afterValue stack v t

/-- The document, if it is complete. -/
def result? : Reader → Option Json
  | .after [] v => some v
  | _ => none

end Reader

/-- The value that a list of tokens spells. -/
def ofTokens? (ts : List Token) : Option Json :=
  (ts.foldlM Reader.step Reader.start) >>= Reader.result?

/-- **The value that a text spells**, or `none` if it is not a JSON text. -/
def parse (s : String) : Option Json :=
  tokens? s.toList >>= ofTokens?

/-- **The value that bytes spell.** They need not be text, as long as that is so
only inside of strings. -/
def parseBytes (bs : List UInt8) : Option Json :=
  tokensOfBytes? bs >>= ofTokens?

end Switchboard.Json
