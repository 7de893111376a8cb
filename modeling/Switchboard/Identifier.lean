/-!
# Minted identifiers

Documents may leave identifiers out; those are minted on import. A minted
identifier is the text of a version 4 UUID, of which 122 bits are free. Where
those bits come from is up to the caller: a supply hands out identifiers of
successive numbers, which are distinct until the numbers wrap around.
-/

namespace Switchboard

/-- **A source of fresh identifiers.** -/
structure IdSupply where
  /-- The number behind the next identifier. -/
  next : Nat
deriving Repr, DecidableEq, Inhabited

namespace IdSupply

/-- The hexadecimal digits of a number at a fixed width, in lower case. -/
def hex : (width n : Nat) → List Char
  | 0, _ => []
  | width + 1, n => hex width (n / 16) ++ [(Nat.digitChar (n % 16))]

/-- **The text of a version 4 UUID** with the given free bits. -/
def uuid (n : Nat) : String :=
  let low := n % 0x1000000000000
  let n := n / 0x1000000000000
  let variant := 0x8000 + n % 0x4000
  let n := n / 0x4000
  let version := 0x4000 + n % 0x1000
  let n := n / 0x1000
  let mid := n % 0x10000
  let high := n / 0x10000 % 0x100000000
  String.ofList (hex 8 high ++ '-' :: hex 4 mid ++ '-' :: hex 4 version ++ '-' ::
    hex 4 variant ++ '-' :: hex 12 low)

/-- The next identifier, and the supply without it. -/
def mint (s : IdSupply) : String × IdSupply := (uuid s.next, ⟨s.next + 1⟩)

/-- An identifier that is given, or else the next of the supply. -/
def fill (s : IdSupply) : Option String → String × IdSupply
  | some id => (id, s)
  | none => s.mint

@[simp] theorem fill_some (s : IdSupply) (id : String) : s.fill (some id) = (id, s) := rfl

end IdSupply

end Switchboard
