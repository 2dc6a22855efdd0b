/-
# A fixed number of decimal places

The exact value of a double, rounded to a given number of places.  A half goes to the even
neighbour.
-/
import RevenueDesk.Number.Binary64
import RevenueDesk.Number.Digits

namespace RevenueDesk

namespace FixedPlaces

/-- The magnitude of a finite double in units of `10 ^ -places`, rounded. -/
def units (places : Nat) (x : Binary64) : Nat :=
  Digits.roundDiv (x.significand * Nat.pow 10 places * Nat.pow 2 x.scale.toNat)
    (Nat.pow 2 (-x.scale).toNat)

/-- The decimal places of a number of units, written with all of them. -/
def fraction (places units : Nat) : List Char :=
  let ds := Digits.digitsOnto (units % Nat.pow 10 places) []
  List.replicate (places - ds.length) '0' ++ ds

/-- The whole part of a number of units. -/
def whole (places units : Nat) : Nat := units / Nat.pow 10 places

end FixedPlaces

end RevenueDesk
