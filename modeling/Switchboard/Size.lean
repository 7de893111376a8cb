/-!
# Numbers of limited size

The greatest and the least numbers of some sizes, as documents and settings
know them, and what is kept of a number that is greater.
-/

namespace Switchboard.Size

/-- The greatest natural number of 32 bits. -/
def greatest32 : Nat := 4294967295

/-- The greatest natural number of 64 bits. -/
def greatest64 : Nat := 18446744073709551615

/-- **What 64 bits keep of a natural number**: beyond the greatest, counting
begins again at zero. -/
def wrap64 (n : Nat) : Nat := n % (greatest64 + 1)

theorem wrap64_of_le {n : Nat} (h : n ≤ greatest64) : wrap64 n = n :=
  Nat.mod_eq_of_lt (Nat.lt_succ_of_le h)

/-- A number that is cut off may be cut off before it is added. -/
theorem wrap64_add (a b : Nat) : wrap64 (a + wrap64 b) = wrap64 (a + b) :=
  Nat.add_mod_mod a b _

/-- The greatest integer of 64 bits, one of which is for the sign. -/
def greatestSigned64 : Nat := 9223372036854775807

/-- The least integer of 64 bits, one of which is for the sign. -/
def leastSigned64 : Int := -9223372036854775808

end Switchboard.Size
