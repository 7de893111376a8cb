/-!
# Random lengths

Random waits have their lengths drawn from a sequence that a seed determines.
Whatever the seed is, a length lies within the bounds it is drawn for.
-/

namespace Switchboard

/-- **A source of random lengths.** -/
structure Dice where
  /-- What the next length comes from. -/
  seed : Nat
deriving Repr, DecidableEq, Inhabited

namespace Dice

/-- **Draws a number between two bounds**, both of which can come up. -/
def roll (min max : Nat) (d : Dice) : Nat × Dice :=
  (min + d.seed / 0x10000 % (max + 1 - min),
    ⟨(d.seed * 6364136223846793005 + 1442695040888963407) % 0x10000000000000000⟩)

theorem le_roll (min max : Nat) (d : Dice) : min ≤ (d.roll min max).1 := Nat.le_add_right ..

theorem roll_le (min max : Nat) (d : Dice) (h : min ≤ max) : (d.roll min max).1 ≤ max := by
  have : d.seed / 0x10000 % (max + 1 - min) < max + 1 - min := Nat.mod_lt _ (by omega)
  simp only [roll]
  omega

end Dice

end Switchboard
