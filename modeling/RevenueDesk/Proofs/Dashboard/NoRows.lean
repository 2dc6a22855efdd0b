/-
# The views of an empty table

Every view has something to show when there are no rows: its lists are empty, what may be
missing is missing, and all counts, sums and shares are zero.  No mean, share or growth is
taken of nothing, so no figure is infinite or undefined.

* the groups, months and quarters of no rows are none (`groupBy_nil` and so on);
* a view of no rows is written out in full (`ExecutiveView.of_nil` and so on).

The sum of no doubles is -0.0; it shows in the one figure that is a plain sum of rows.
-/
import Mathlib.Tactic.Common
import RevenueDesk.Dashboard.Designations
import RevenueDesk.Dashboard.Managers
import RevenueDesk.Dashboard.Skills
import RevenueDesk.Dashboard.Trend

namespace RevenueDesk

open Amount

namespace Amount

@[simp] lemma zero_binary64 : (zero : Binary64) = .zero := by decide

@[simp] lemma sum_nil_binary64 : (sum [] : Binary64) = .negZero := rfl

end Amount

namespace Ledger

section Groups

variable {α : Type} [Amount α]

@[simp] lemma groupByKeys_nil (keys : Row α → List String) : groupByKeys [] keys = [] := by
  simp [groupByKeys, ranked, rankBy, tally]

@[simp] lemma groupBy_nil (field : Row α → Option String) : groupBy [] field = [] := by
  simp [groupBy]

@[simp] lemma groupByEach_nil (field : Row α → Option String) : groupByEach [] field = [] := by
  simp [groupByEach]

@[simp] lemma quarterlyBy_nil (field : Row α → Option String) : quarterlyBy [] field = [] := by
  simp [quarterlyBy, rankBy]

@[simp] lemma monthlyTotals_nil : monthlyTotals ([] : List (Row α)) = [] := by
  simp [monthlyTotals]

@[simp] lemma calendarQuarters_nil : calendarQuarters ([] : List (Row α)) = [] := by
  simp [calendarQuarters]

@[simp] lemma topWithOthers_nil (n : Nat) : topWithOthers n ([] : List (Group α)) = [] := by
  simp [topWithOthers]

end Groups

section Figures

@[simp] lemma totalOf_nil_binary64 : totalOf ([] : List (Group Binary64)) = .zero := by decide

/-- There is no positive total to take a share of. -/
@[simp] lemma sharePct_negZero (part : Binary64) : sharePct part .negZero = .zero := by
  have hlt : lt (.zero : Binary64) .negZero = false := by decide
  simp [sharePct, hlt]

@[simp] lemma concentration?_nil : concentration? ([] : List (Group Binary64)) = none := by
  have hwhole : sharable (.zero : Binary64) = false := by decide
  simp [concentration?, hwhole]

@[simp] lemma pareto_nil : pareto ([] : List (Group Binary64)) = [] := by
  have hwhole : sharable (.zero : Binary64) = false := by decide
  simp [pareto, hwhole]

end Figures

end Ledger

/-! ## The five views -/

section Views

variable (degraded : Bool)

lemma ExecutiveView.of_nil :
    ExecutiveView.of (⟨[], degraded⟩ : Snapshot Binary64) =
      { source := ⟨0, degraded⟩
        totalRevenue := .negZero
        clientCount := 0
        avgRevenuePerClient := .zero
        topClient := none
        top5SharePct := .zero
        concentrationHhi := none
        longTailSharePct := .zero
        clients := []
        pareto := [] } := by
  simp [ExecutiveView.of, Snapshot.totalRevenue, Snapshot.source]

lemma SkillsView.of_nil :
    SkillsView.of (⟨[], degraded⟩ : Snapshot Binary64) =
      { source := ⟨0, degraded⟩
        skillAttributedRevenue := .zero
        topSkill := none
        skillDependency := none
        skills := []
        pie := []
        heatmap := [] } := by
  simp [SkillsView.of, Snapshot.source]

lemma DesignationsView.of_nil :
    DesignationsView.of (⟨[], degraded⟩ : Snapshot Binary64) =
      { source := ⟨0, degraded⟩
        totalRevenue := .zero
        totalCount := 0
        avgRevenuePerRole := .zero
        topRole := none
        avgEfficiency := .zero
        designations := [] } := by
  simp [DesignationsView.of, Snapshot.source, Ledger.countOf]

lemma TrendView.of_nil :
    TrendView.of (⟨[], degraded⟩ : Snapshot Binary64) =
      { source := ⟨0, degraded⟩
        latestMonth := none
        momGrowth := none
        bestMonth := none
        volatilityPct := .zero
        months := [] } := by
  simp [TrendView.of, Snapshot.source, Ledger.monthOverMonth, Ledger.monthEntriesFrom]

lemma ManagersView.of_nil :
    ManagersView.of (⟨[], degraded⟩ : Snapshot Binary64) =
      { source := ⟨0, degraded⟩
        quarterTotals := ⟨.zero, .zero, .zero, .zero, .zero⟩
        qoqGrowth := none
        topManager := none
        stabilityScore := .zero
        managers := [] } := by
  simp [ManagersView.of, Snapshot.source, Ledger.quarterOverQuarter?, Ledger.variationPct?,
    Breakdown.zero]

end Views

end RevenueDesk
