/-
# Three ways to date revenue

The time view shows months, the growth of the managers view compares quarters of years, and its
breakdowns hold quarters of the year over all years.  Each is booked from the rows by itself.
Read exactly, they are the same revenue in coarser and coarser buckets (`sameBuckets`), for any
dates: several years, negative ones, and gaps between them.

A group with its breakdown shows the total of its five parts.  That is added up in another
order than the revenue of a group without one, and still ranks it at the same place.
-/
import Mathlib.Algebra.Order.Field.Rat
import RevenueDesk.Dashboard.Managers
import RevenueDesk.Proofs.Ledger.Regrouping

namespace RevenueDesk

open Ledger

variable {K : Type} [Field K] [LinearOrder K]

/-- A quarter of the managers view is what the rows have in it. -/
lemma ManagersView.part_quarterTotals (s : Snapshot K) (quarter : Quarter) :
    (ManagersView.of s).quarterTotals.part quarter = (s.rows.map (Row.within quarter)).sum := by
  refine ((Breakdown.adds_part quarter).foldl_merge _ _).trans ?_
  rw [Breakdown.part_zero, zero_add]
  exact sum_part_quarterlyBy quarter _ _

variable {α : Type} [Amount α]

/-- The buckets of a snapshot agree, with the figures read as exact numbers:

* the quarters of the years come in chronological order, each of them once;
* they are the months, put together;
* a quarter of the managers view is that quarter of all years;
* groups with and without breakdowns are ranked alike, with the same revenue. -/
structure SameBuckets (value : α → K) (s : Snapshot α) : Prop where
  ascending : (calendarQuarters (s.reading value).rows).Pairwise fun a b => a.1.Before b.1
  months : calendarQuarters (s.reading value).rows =
    regrouped (monthlyTotals (s.reading value).rows)
  quarters : ∀ quarter, (ManagersView.of (s.reading value)).quarterTotals.part quarter =
    Amount.total (((calendarQuarters (s.reading value).rows).filter fun e =>
      e.1.quarter = quarter).map Prod.snd)
  rankings : ∀ field,
    (quarterlyBy (s.reading value).rows field).map (fun g => (g.key, g.revenue)) =
      (groupBy (s.reading value).rows field).map fun g => (g.key, g.revenue)

/-- Months, quarters of years and quarters of the year hold the same revenue. -/
theorem sameBuckets (value : α → K) (s : Snapshot α) : SameBuckets value s where
  ascending := before_calendarQuarters _
  months := calendarQuarters_eq_regrouped _
  quarters quarter := by
    rw [ManagersView.part_quarterTotals, Amount.total_eq_sum, sum_quarter_calendarQuarters]
  rankings field := figures_eq _ field

end RevenueDesk
