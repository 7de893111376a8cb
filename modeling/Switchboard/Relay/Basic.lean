/-!
# Relays

The board has four outputs, numbered from 0. An output is either energised
or not; the controller speaks of this in integers, where anything but zero
means energised.
-/

namespace Switchboard

/-- **An output of the board.** -/
abbrev Relay := Fin 4

/-- **Whether an output is energised.** -/
inductive Power where
  /-- Energised. -/
  | on
  /-- Not energised. -/
  | off
deriving Repr, DecidableEq, Inhabited

namespace Relay

/-- The first output. -/
def first : Relay := 0

/-- The outputs after the first, in board order. -/
def others : List Relay := [1, 2, 3]

/-- The four outputs in board order. -/
def all : List Relay := first :: others

/-- The output with a given number, if there is one. -/
def ofNat? (n : Nat) : Option Relay := if h : n < 4 then some ⟨n, h⟩ else none

/-- The number of an output, as text. -/
def label (r : Relay) : String := Nat.repr r.val

/-- What is wrong with a number that `ofNat?` refuses. -/
def outOfRange (n : Nat) : String :=
  "relay index " ++ Nat.repr n ++ " is out of range 0..=3"

@[simp] theorem mem_all (r : Relay) : r ∈ all := by
  revert r; decide

@[simp] theorem ofNat?_val (r : Relay) : ofNat? r.val = some r := by
  simp [ofNat?]

end Relay

/-- **One thing for each output.** -/
abbrev PerRelay (α : Type) := Vector α 4

namespace PerRelay

variable {α : Type}

/-- The same thing for every output. -/
def same (a : α) : PerRelay α := Vector.replicate 4 a

/-- The thing for an output. -/
def of (v : PerRelay α) (r : Relay) : α := v[r]

/-- Another thing for an output. -/
def put (v : PerRelay α) (r : Relay) (a : α) : PerRelay α := v.set r a

@[simp] theorem of_same (a : α) (r : Relay) : (same a).of r = a := by
  simp [same, of]

@[simp] theorem of_put_self (v : PerRelay α) (r : Relay) (a : α) : (v.put r a).of r = a := by
  simp [put, of]

theorem of_put_ne (v : PerRelay α) {r q : Relay} (a : α) (h : r ≠ q) :
    (v.put r a).of q = v.of q := by
  simp [put, of, Fin.val_ne_of_ne h]

end PerRelay

namespace Power

/-- The state written in capitals, as documents and users know it. -/
def label : Power → String
  | .on => "ON"
  | .off => "OFF"

/-- The state with a given label. -/
def ofLabel? (s : String) : Option Power :=
  if s = "ON" then some .on else if s = "OFF" then some .off else none

/-- Whether the output is energised. -/
def isOn : Power → Bool
  | .on => true
  | .off => false

/-- The integer that the controller uses for a state. -/
def toWire : Power → Nat
  | .on => 1
  | .off => 0

/-- The state that an integer of the controller means. -/
def ofWire (n : Nat) : Power := if n = 0 then .off else .on

/-- The state that a truth value means. -/
def ofBool (b : Bool) : Power := if b then .on else .off

@[simp] theorem ofLabel?_label (p : Power) : ofLabel? p.label = some p := by
  cases p <;> decide

@[simp] theorem ofWire_toWire (p : Power) : ofWire p.toWire = p := by
  cases p <;> rfl

end Power

end Switchboard
