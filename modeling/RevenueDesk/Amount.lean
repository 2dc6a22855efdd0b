/-
# Amounts

What a type of numbers has to offer for revenue to be summed, compared and ranked in it.
The service runs on doubles; read in the rationals or the reals, the same definitions say
what the figures mean.

Two kinds of sum occur.  A *running total* starts from zero; a *plain sum* starts from
`negZero`, the neutral element of addition, which for doubles is -0.0 and shows as the sum
of nothing.  Both go from left to right.
-/
import RevenueDesk.Number.Binary64

namespace RevenueDesk

/-- A type of numbers in which revenue can be counted. -/
class Amount (α : Type) extends Add α, Sub α, Mul α, Div α where
  /-- The number that a count is. -/
  ofNat : Nat → α
  /-- The sum of nothing. -/
  negZero : α
  sqrt : α → α
  /-- Whether a figure can be used: neither infinite nor undefined. -/
  isFinite : α → Bool
  /-- At most, as numbers. -/
  le : α → α → Bool
  /-- The order of rankings, in which any two different figures differ. -/
  rank : α → α → Ordering

namespace Amount

variable {α : Type} [Amount α]

def zero : α := ofNat 0

def hundred : α := ofNat 100

/-- Less than, as numbers. -/
def lt (a b : α) : Bool := le a b && !le b a

/-- The same number. -/
def same (a b : α) : Bool := le a b && le b a

/-- The running total of a list, from zero. -/
def total (xs : List α) : α := xs.foldl (· + ·) zero

/-- The plain sum of a list. -/
def sum (xs : List α) : α := xs.foldl (· + ·) negZero

def square (a : α) : α := a * a

/-- A negative or undefined figure as zero. -/
def orZero (a : α) : α := if le zero a then a else zero

end Amount

instance : Amount Binary64 where
  ofNat := Binary64.ofNat
  negZero := Binary64.negZero
  sqrt := Binary64.sqrt
  isFinite := Binary64.isFinite
  le := Binary64.le
  rank := Binary64.rank

end RevenueDesk
