/-
# The managers view

Revenue by manager and quarter of the year, the growth of the last quarter with rows over
the one before it, and a score for how evenly revenue is spread over the managers.
-/
import RevenueDesk.Dashboard.Executive
import RevenueDesk.Ledger.Breakdown
import RevenueDesk.Ledger.Period

namespace RevenueDesk

structure ManagersView (α : Type) where
  source : Source
  /-- The revenue of all managers by quarter of the year. -/
  quarterTotals : Breakdown α
  /-- The growth of the last quarter of a year that has rows. -/
  qoqGrowth : Option α
  topManager : Option (TopEntry α)
  /-- One hundred less the variation of the managers in percent, and never below zero. -/
  stabilityScore : α
  managers : List (QuarterlyGroup α)
deriving Inhabited

namespace ManagersView

open Ledger Amount

variable {α : Type} [Amount α]

def of (s : Snapshot α) : ManagersView α :=
  let managers := quarterlyBy s.rows Row.manager
  let totals := (managers.map QuarterlyGroup.quarters).foldl Breakdown.merge .zero
  { source := s.source
    quarterTotals := totals
    qoqGrowth := quarterOverQuarter? (calendarQuarters s.rows)
    topManager := managers.head?.map fun m => .of m.key m.revenue totals.total
    stabilityScore :=
      ((variationPct? (managers.map QuarterlyGroup.revenue)).map fun v => orZero (hundred - v)).getD
        zero
    managers := managers }

end ManagersView

end RevenueDesk
