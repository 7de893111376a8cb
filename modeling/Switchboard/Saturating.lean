import Switchboard.Size

/-!
# Saturating arithmetic

Durations and products are kept in 64 bits. A sum or product that does not fit
is the largest number that does. Saturating at every step gives the same as
saturating once at the end, which is what the laws below are for.
-/

namespace Switchboard.Saturating

/-- The largest number that fits into 64 bits. -/
def limit : Nat := Size.greatest64

/-- A number cut down to the limit. -/
def cut (n : Nat) : Nat := min n limit

/-- The sum, cut down to the limit. -/
def add (a b : Nat) : Nat := cut (a + b)

/-- The product, cut down to the limit. -/
def mul (a b : Nat) : Nat := cut (a * b)

theorem cut_of_le {n : Nat} (h : n ≤ limit) : cut n = n := Nat.min_eq_left h

theorem cut_of_ge {n : Nat} (h : limit ≤ n) : cut n = limit := Nat.min_eq_right h

/-- Cutting numbers down before they are added makes no difference. -/
theorem add_cut (a b : Nat) : add (cut a) (cut b) = cut (a + b) := by
  unfold add cut
  omega

/-- Cutting a number down before it is multiplied makes no difference. -/
theorem mul_cut (a n : Nat) : mul (cut a) n = cut (a * n) := by
  unfold mul
  by_cases h : a ≤ limit
  · rw [cut_of_le h]
  · rw [cut_of_ge (Nat.le_of_not_le h)]
    cases n with
    | zero => rfl
    | succ n =>
      -- the limit was passed already, and a factor that is not zero leads nowhere else
      have hlimit : limit ≤ limit * (n + 1) := Nat.le_mul_of_pos_right _ (Nat.succ_pos n)
      have ha : limit * (n + 1) ≤ a * (n + 1) := Nat.mul_le_mul_right _ (Nat.le_of_not_le h)
      rw [cut_of_ge hlimit, cut_of_ge (Nat.le_trans hlimit ha)]

end Switchboard.Saturating
