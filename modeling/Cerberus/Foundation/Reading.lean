import Mathlib.Order.Lattice
import Mathlib.Data.Nat.Cast.Defs

namespace Cerberus.Foundation

/-- A value of a floating-point type: one of an ordered type, or not a number. -/
abbrev Reading (K : Type) := Option K

namespace Reading

variable {K : Type} [LinearOrder K]

/-- `x >= y`, which is false of what is not a number. -/
def atLeast : Reading K → Reading K → Bool
  | some x, some y => y ≤ x
  | _, _ => false

/-- `x > y` -/
def above : Reading K → Reading K → Bool
  | some x, some y => y < x
  | _, _ => false

/-- `std::clamp`, which returns what is not a number. -/
def clamp (x : Reading K) (lo hi : K) : Reading K :=
  if above (some lo) x then some lo else if above x (some hi) then some hi else x

end Reading

end Cerberus.Foundation
