/-!
# Characters and bytes

A text travels as the bytes of its characters. What arrives is bytes, and these need not be text: a
byte may belong to no character. Such a byte does not keep the characters around it from being read,
which is why `characters` gives it a place of its own among them.
-/

namespace Switchboard.Text

/-- **The bytes of a text.** -/
def bytes (s : String) : List UInt8 := s.toByteArray.data.toList

/-- Where bytes are asked for, a text stands for its own. -/
instance coeBytes : Coe String (List UInt8) := ⟨bytes⟩

/-- **The character that bytes begin with**, if they begin with one. None takes more than four. -/
def leading? (bs : List UInt8) : Option Char := (bs.take 4).toByteArray.utf8DecodeChar? 0

/-- The characters in bytes of which the first few belong to a character that has been read. -/
def charactersBehind : Nat → List UInt8 → List (Option Char)
  | _, [] => []
  | read + 1, _ :: bs => charactersBehind read bs
  | 0, b :: bs =>
    match leading? (b :: bs) with
    | some c => some c :: charactersBehind (c.utf8Size - 1) bs
    | none => none :: charactersBehind 0 bs

/-- **The characters in bytes**, with `none` for a byte that belongs to no character. -/
def characters (bs : List UInt8) : List (Option Char) := charactersBehind 0 bs

end Switchboard.Text
