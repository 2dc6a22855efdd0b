/-
# The time view

Revenue month by month: the latest and the best month, the growth of the latest one, and
how much the months vary.
-/
import RevenueDesk.Ledger.Period

namespace RevenueDesk

structure TrendView (α : Type) where
  source : Source
  latestMonth : Option (MonthEntry α)
  momGrowth : Option α
  /-- The month with the largest revenue, the earliest of several. -/
  bestMonth : Option (MonthEntry α)
  /-- The variation of the months, in percent; zero for a single month. -/
  volatilityPct : α
  months : List (MonthEntry α)
deriving Inhabited

namespace TrendView

open Ledger Amount

variable {α : Type} [Amount α]

/-- The better of the best month so far and the next one; of equal ones the first. -/
def better (best : Option (MonthEntry α)) (m : MonthEntry α) : Option (MonthEntry α) :=
  match best with
  | some b => if le m.revenue b.revenue then some b else some m
  | none => some m

def of (s : Snapshot α) : TrendView α :=
  let months := monthOverMonth (monthlyTotals s.rows)
  let latest := months.getLast?
  let revenues := months.map MonthEntry.revenue
  { source := s.source
    latestMonth := latest
    momGrowth := latest.bind MonthEntry.growth
    bestMonth := months.foldl better none
    volatilityPct := if 1 < revenues.length then (variationPct? revenues).getD zero else zero
    months := months }

end TrendView

end RevenueDesk
