/-
# Measures

Shares, growth, dispersion and concentration, the last as an index and as a curve.  A
measure that a list of figures does not have is left out: there is no growth from zero, no
concentration of a total that is not positive, no dispersion around a mean of zero.
-/
import RevenueDesk.Ledger.Group

namespace RevenueDesk.Ledger

variable {α : Type} [Amount α]

open Amount

/-- A part in percent of a total, and zero if the total is not positive. -/
def sharePct (part whole : α) : α :=
  if lt zero whole then part / whole * hundred else zero

/-- The change in percent from one figure to the next, unless the first is zero or not
finite. -/
def growthPct? (current previous : α) : Option α :=
  if same previous zero || !isFinite previous then none
  else some ((current - previous) / previous * hundred)

/-- The standard deviation of the whole population in percent of the mean. -/
def variationPct? (values : List α) : Option α :=
  if values.isEmpty then none
  else
    let n : α := ofNat values.length
    let mean := sum values / n
    if same mean zero then none
    else
      let variance := sum (values.map fun v => square (v - mean)) / n
      some (sqrt variance / mean * hundred)

/-- A total that shares can be taken of: positive and finite. -/
def sharable (whole : α) : Bool := !le whole zero && isFinite whole

/-- The Herfindahl-Hirschman index, between 0 and 1: the sum of the squared shares. -/
def concentration? (groups : List (Group α)) : Option α :=
  let whole := totalOf groups
  if sharable whole then some (sum (groups.map fun g => square (g.revenue / whole)))
  else none

structure ParetoPoint (α : Type) where
  key : String
  revenue : α
  /-- The revenue up to and including the group. -/
  cumulative : α
  /-- The same in percent of the total. -/
  cumulativePct : α
deriving Inhabited

/-- The points of groups that follow a revenue of `before`. -/
def paretoFrom (whole before : α) : List (Group α) → List (ParetoPoint α)
  | [] => []
  | g :: gs =>
    let cumulative := before + g.revenue
    ⟨g.key, g.revenue, cumulative, cumulative / whole * hundred⟩ :: paretoFrom whole cumulative gs

/-- The Pareto curve of groups in the order given; empty if their total is not positive. -/
def pareto (groups : List (Group α)) : List (ParetoPoint α) :=
  let whole := totalOf groups
  if sharable whole then paretoFrom whole zero groups else []

end RevenueDesk.Ledger
