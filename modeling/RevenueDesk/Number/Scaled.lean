/-
# The double of a decimal, by scaling

A decimal numeral is turned into a double in a few steps that each round, and not in one
step to the nearest double.

* Its digits are taken from the left for as long as the number that they make up fits 64
  bits.  Digits before the point that are left over count as zeros, and digits behind the
  point that are left over as nothing.
* That number is rounded to a double.
* The double is multiplied with the power of ten that is still to be applied, or divided by
  it; the power is a double itself.

So the result lies near the decimal without always being the nearest double, and a decimal
just below the largest double may count as out of range.
-/
import RevenueDesk.Number.Binary64

namespace RevenueDesk

namespace Binary64

/-- The largest power of ten that is a double. -/
def largestPower : Nat := 308

def powerOfTen (n : Nat) : Binary64 := ofNat (Nat.pow 10 n)

def isZero (x : Binary64) : Bool := x.magnitudeBits == 0

/-- `x / 10 ^ n`, in steps of at most the largest power. -/
def scaledDown (x : Binary64) (n : Nat) : Binary64 :=
  if n ≤ largestPower then x / powerOfTen n
  else if x.isZero then x
  else scaledDown (x / powerOfTen largestPower) (n - largestPower)
termination_by n
decreasing_by simp only [largestPower] at *; omega

/-- `x * 10 ^ n` for an `x` that is not negative, unless it is beyond the range of the
doubles. -/
def scaledUp? (x : Binary64) (n : Nat) : Option Binary64 :=
  if n ≤ largestPower then
    let y := x * powerOfTen n
    if y.isFinite then some y else none
  else if x.isZero then some x
  else none

/-- The double for `m * 10 ^ e`, unless it is beyond the range of the doubles. -/
def scaled? (m : Nat) (e : Int) : Option Binary64 :=
  if 0 ≤ e then scaledUp? (ofNat m) e.toNat else some (scaledDown (ofNat m) e.natAbs)

end Binary64

/-- The largest number that the digits of a numeral may make up. -/
def largestSignificand : Nat := 0xFFFFFFFFFFFFFFFF

/-- The digits that still fit behind those that make up `value`: what they make up with
them, and how many digits are left over. -/
def fittingDigits (value : Nat) : List Nat → Nat × Nat
  | [] => (value, 0)
  | d :: ds =>
    if largestSignificand < value * 10 + d then (value, ds.length + 1)
    else fittingDigits (value * 10 + d) ds

/-- The double for a numeral with these digits before and behind the point, times a power of
ten; nothing if it is beyond the range of the doubles. -/
def Binary64.ofDigits? (whole fraction : List Nat) (exponent : Int) : Option Binary64 :=
  let (m, zeros) := fittingDigits 0 whole
  let (m, left) := fittingDigits m fraction
  scaled? m (exponent + zeros - (fraction.length - left : Nat))

end RevenueDesk
