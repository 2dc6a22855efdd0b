/-
# Dispersion in and out of its scale

The volatility of the time view and the stability score of the managers view are both made of
a standard deviation over a mean.  Volatility is meant to be zero at least, and the score to lie
between zero and one hundred.  Where revenue is not negative they do (`dispersionScale`).

Refunds may outweigh the revenue, however, and then the mean is negative.  Read exactly, this is
the one way out: volatility is below zero if the dated rows amount to less than nothing, and the
score is above one hundred if all rows do, unless all months or all managers are the same.
-/
import Mathlib.Analysis.Real.Sqrt
import RevenueDesk.Dashboard.Managers
import RevenueDesk.Proofs.Dashboard.MonthByMonth
import RevenueDesk.Proofs.Dashboard.OneTotal
import RevenueDesk.Proofs.Ledger.Regrouping
import RevenueDesk.Proofs.Ledger.Variation

namespace RevenueDesk

open Ledger

/-! ## Revenue under keys -/

section Amounts

variable {K κ : Type} [Field K] [LinearOrder K] [DecidableEq κ] (s : Snapshot K)
  (key : Row K → Option κ)

/-- What the rows with a key amount to. -/
noncomputable def Snapshot.amountUnder (k : κ) : K :=
  ((s.rows.filter fun row => key row = some k).map Row.amount).sum

/-- Two keys amount to different revenues. -/
def Snapshot.Differ : Prop :=
  ∃ k k', (∃ row ∈ s.rows, key row = some k) ∧ (∃ row ∈ s.rows, key row = some k') ∧
    s.amountUnder key k ≠ s.amountUnder key k'

variable {s key}

/-- If the figures are what the keys amount to, they differ if the keys do. -/
lemma exists_ne_iff_differ {xs : List K}
    (h : ∀ x, x ∈ xs ↔ ∃ k, (∃ row ∈ s.rows, key row = some k) ∧ s.amountUnder key k = x) :
    (∃ x ∈ xs, ∃ y ∈ xs, x ≠ y) ↔ s.Differ key := by
  simp only [h]
  constructor
  · rintro ⟨x, ⟨k, hk, rfl⟩, y, ⟨k', hk', rfl⟩, hne⟩
    exact ⟨k, k', hk, hk', hne⟩
  · rintro ⟨k, k', hk, hk', hne⟩
    exact ⟨_, ⟨k, hk, rfl⟩, _, ⟨k', hk', rfl⟩, hne⟩

namespace TrendView

/-- The months of the view show what the months amount to. -/
lemma mem_revenues (x : K) : x ∈ (TrendView.of s).months.map MonthEntry.revenue ↔
    ∃ month, (∃ row ∈ s.rows, row.month? = some month) ∧ s.amountUnder Row.month? month = x := by
  rw [map_revenue_months, List.mem_map]
  constructor
  · rintro ⟨e, he, rfl⟩
    exact ⟨e.1, mem_months.mp (List.mem_map_of_mem he), (revenue_of_mem_monthlyTotals he).symm⟩
  · rintro ⟨month, hmonth, rfl⟩
    obtain ⟨e, he, rfl⟩ := List.mem_map.mp (mem_months.mpr hmonth)
    exact ⟨e, he, revenue_of_mem_monthlyTotals he⟩

/-- Together they show all rows with a date. -/
lemma sum_revenues : ((TrendView.of s).months.map MonthEntry.revenue).sum =
    s.withoutUndated.totalRevenue := by
  have hnone : s.withoutUndated.rows.filter (fun row => row.month.isNone) = [] := by
    simp [Snapshot.withoutUndated]
  have hsum := sum_monthlyTotals s.withoutUndated.rows
  rw [Row.sum_undated, hnone, List.map_nil, List.sum_nil, add_zero] at hsum
  rw [map_revenue_months, Snapshot.totalRevenue_eq, ← hsum, Snapshot.withoutUndated,
    monthlyTotals_filter]

end TrendView

/-- The manager that a row is counted for. -/
def Row.managerKey? (row : Row K) : Option String := some (keyOf row.manager)

/-- The managers of the view show what the managers amount to. -/
lemma ManagersView.mem_revenues (x : K) :
    x ∈ (ManagersView.of s).managers.map QuarterlyGroup.revenue ↔
      ∃ manager, (∃ row ∈ s.rows, row.managerKey? = some manager) ∧
        s.amountUnder Row.managerKey? manager = x := by
  have hrevenues : (ManagersView.of s).managers.map QuarterlyGroup.revenue =
      (groupBy s.rows Row.manager).map Group.revenue := by
    have hfigures := congrArg (List.map Prod.snd) (figures_eq s.rows Row.manager)
    rw [List.map_map, List.map_map] at hfigures
    exact hfigures
  have hrevenue : ∀ g ∈ groupBy s.rows Row.manager,
      g.revenue = s.amountUnder Row.managerKey? g.key := by
    intro g hg
    rw [revenue_of_mem_groupBy hg, Snapshot.amountUnder]
    simp only [Row.managerKey?, Option.some_inj]
  have hkeys : ∀ manager, (∃ row ∈ s.rows, row.managerKey? = some manager) ↔
      manager ∈ (groupBy s.rows Row.manager).map Group.key := by
    intro manager
    rw [mem_keys_groupBy]
    simp only [Row.managerKey?, Option.some_inj]
  rw [hrevenues, List.mem_map]
  simp only [hkeys]
  constructor
  · rintro ⟨g, hg, rfl⟩
    exact ⟨g.key, List.mem_map_of_mem hg, (hrevenue g hg).symm⟩
  · rintro ⟨manager, hmanager, rfl⟩
    obtain ⟨g, hg, rfl⟩ := List.mem_map.mp hmanager
    exact ⟨g, hg, hrevenue g hg⟩

end Amounts

/-! ## Real figures -/

section Real

variable (s : Snapshot ℝ)

/-- Volatility is the variation of the months; a single month has none. -/
lemma TrendView.volatilityPct_eq : (TrendView.of s).volatilityPct =
    (variationPct? ((TrendView.of s).months.map MonthEntry.revenue)).getD 0 := by
  change (if 1 < ((TrendView.of s).months.map MonthEntry.revenue).length then
    (variationPct? ((TrendView.of s).months.map MonthEntry.revenue)).getD Amount.zero
    else Amount.zero) = _
  rw [Amount.zero_eq]
  generalize (TrendView.of s).months.map MonthEntry.revenue = revenues
  split
  · rfl
  · rename_i hlength
    have hnone : ¬ 0 < deviationOf revenues := by
      rw [deviationOf_pos_iff]
      rintro ⟨x, hx, y, hy, hne⟩
      obtain ⟨z, rfl⟩ := List.length_eq_one_iff.mp
        (le_antisymm (not_lt.mp hlength) (List.length_pos_of_mem hx))
      exact hne ((List.mem_singleton.mp hx).trans (List.mem_singleton.mp hy).symm)
    rw [getD_variationPct?, (not_lt.mp hnone).antisymm (Real.sqrt_nonneg _), zero_div, zero_mul]

theorem TrendView.volatilityPct_neg_iff : (TrendView.of s).volatilityPct < 0 ↔
    s.withoutUndated.totalRevenue < 0 ∧ s.Differ Row.month? := by
  rw [volatilityPct_eq, variation_neg_iff, sum_revenues, exists_ne_iff_differ mem_revenues]

namespace ManagersView

/-- The score is what variation leaves of one hundred, if there is any and it leaves anything. -/
lemma stabilityScore_eq : (ManagersView.of s).stabilityScore =
    ((variationPct? ((ManagersView.of s).managers.map QuarterlyGroup.revenue)).map fun v =>
      max (100 - v) 0).getD 0 := by
  have hclamp : ∀ x : ℝ, Amount.orZero x = max x 0 := by
    intro x
    simp only [Amount.orZero, Amount.le_iff, Amount.zero_eq]
    exact (max_comm x 0).trans (max_def 0 x) |>.symm
  have hscore : ∀ v : ℝ, Amount.orZero (Amount.hundred - v) = max (100 - v) 0 := by
    intro v
    rw [hclamp, Amount.hundred_eq]
  change ((variationPct? ((ManagersView.of s).managers.map QuarterlyGroup.revenue)).map fun v =>
    Amount.orZero (Amount.hundred - v)).getD Amount.zero = _
  simp only [hscore, Amount.zero_eq]

theorem stabilityScore_nonneg : 0 ≤ (ManagersView.of s).stabilityScore := by
  rw [stabilityScore_eq]
  cases variationPct? ((ManagersView.of s).managers.map QuarterlyGroup.revenue) with
  | none => exact le_rfl
  | some v => exact le_max_right _ _

theorem stabilityScore_gt_iff : 100 < (ManagersView.of s).stabilityScore ↔
    s.totalRevenue < 0 ∧ s.Differ Row.managerKey? := by
  rw [Snapshot.totalRevenue_eq, ← sum_revenue_managers, ← exists_ne_iff_differ mem_revenues,
    ← variation_neg_iff, stabilityScore_eq]
  cases variationPct? ((ManagersView.of s).managers.map QuarterlyGroup.revenue) with
  | none => norm_num
  | some v =>
    simp only [Option.map_some, Option.getD_some, lt_max_iff]
    constructor
    · rintro (h | h) <;> linarith
    · intro h
      exact Or.inl (by linarith)

end ManagersView

/-- When the two figures leave their scales. -/
structure DispersionScale : Prop where
  /-- Volatility is negative if the dated rows amount to less than nothing, unless all months
  amount to the same. -/
  volatility_neg_iff : (TrendView.of s).volatilityPct < 0 ↔
    s.withoutUndated.totalRevenue < 0 ∧ s.Differ Row.month?
  /-- The score is never negative. -/
  score_nonneg : 0 ≤ (ManagersView.of s).stabilityScore
  /-- It is above one hundred if the rows amount to less than nothing, unless all managers amount
  to the same. -/
  score_gt_iff : 100 < (ManagersView.of s).stabilityScore ↔
    s.totalRevenue < 0 ∧ s.Differ Row.managerKey?
  /-- Without negative revenues both stay where they should. -/
  inScale : (∀ row ∈ s.rows, 0 ≤ row.amount) →
    0 ≤ (TrendView.of s).volatilityPct ∧ (ManagersView.of s).stabilityScore ≤ 100

lemma Snapshot.totalRevenue_nonneg {s : Snapshot ℝ} (h : ∀ row ∈ s.rows, 0 ≤ row.amount) :
    0 ≤ s.totalRevenue := by
  rw [Snapshot.totalRevenue_eq]
  exact List.sum_nonneg (by simpa using h)

/-- Negative totals are what takes volatility and stability out of their scales, with the figures
read as real numbers. -/
theorem dispersionScale {α : Type} [Amount α] (value : α → ℝ) (s : Snapshot α) :
    DispersionScale (s.reading value) where
  volatility_neg_iff := TrendView.volatilityPct_neg_iff _
  score_nonneg := ManagersView.stabilityScore_nonneg _
  score_gt_iff := ManagersView.stabilityScore_gt_iff _
  inScale h := by
    have hdated : ∀ row ∈ (s.reading value).withoutUndated.rows, 0 ≤ row.amount :=
      fun row hrow => h row (List.mem_of_mem_filter hrow)
    constructor
    · rw [← not_lt, TrendView.volatilityPct_neg_iff]
      exact fun hneg => (Snapshot.totalRevenue_nonneg hdated).not_gt hneg.1
    · rw [← not_lt, ManagersView.stabilityScore_gt_iff]
      exact fun hneg => (Snapshot.totalRevenue_nonneg h).not_gt hneg.1

end Real

/-! ## Two refunds -/

/-- Two refunds of different amounts, by two managers and in two months. -/
def refundSheet : Snapshot Binary64 where
  rows :=
    [⟨none, none, none, some "Ana", some ⟨⟨2025, 1⟩, 1⟩, some ⟨0xC059000000000000⟩⟩,
      ⟨none, none, none, some "Bruno", some ⟨⟨2025, 2⟩, 1⟩, some ⟨0xC072C00000000000⟩⟩]
  degraded := false

lemma reading_refundSheet : refundSheet.reading (Binary64.value : Binary64 → ℝ) =
    ⟨[⟨none, none, none, some "Ana", some ⟨⟨2025, 1⟩, 1⟩, some (-100)⟩,
      ⟨none, none, none, some "Bruno", some ⟨⟨2025, 2⟩, 1⟩, some (-300)⟩], false⟩ := by
  have hsmall : (⟨0xC059000000000000⟩ : Binary64).negative = true ∧
      (⟨0xC059000000000000⟩ : Binary64).significand = 0x19000000000000 ∧
      (⟨0xC059000000000000⟩ : Binary64).scale = -46 ∧
      Amount.isFinite (⟨0xC059000000000000⟩ : Binary64) = true := by
    decide
  have hlarge : (⟨0xC072C00000000000⟩ : Binary64).negative = true ∧
      (⟨0xC072C00000000000⟩ : Binary64).significand = 0x12C00000000000 ∧
      (⟨0xC072C00000000000⟩ : Binary64).scale = -44 ∧
      Amount.isFinite (⟨0xC072C00000000000⟩ : Binary64) = true := by
    decide
  have hsmallValue : (⟨0xC059000000000000⟩ : Binary64).value = (-100 : ℝ) := by
    norm_num [Binary64.value, hsmall]
  have hlargeValue : (⟨0xC072C00000000000⟩ : Binary64).value = (-300 : ℝ) := by
    norm_num [Binary64.value, hlarge]
  simp [refundSheet, Snapshot.reading, Row.reading, Option.filter, hsmall, hlarge, hsmallValue,
    hlargeValue]

/-- Neither of the two figures is in its scale on every sheet. -/
theorem dispersion_not_inScale :
    (¬ ∀ s : Snapshot Binary64,
      0 ≤ (TrendView.of (s.reading (Binary64.value : Binary64 → ℝ))).volatilityPct) ∧
    ¬ ∀ s : Snapshot Binary64,
      0 ≤ (ManagersView.of (s.reading (Binary64.value : Binary64 → ℝ))).stabilityScore ∧
        (ManagersView.of (s.reading (Binary64.value : Binary64 → ℝ))).stabilityScore ≤ 100 := by
  have hana : keyOf (some "Ana") = "Ana" := by decide
  have hbruno : keyOf (some "Bruno") = "Bruno" := by decide
  constructor
  · intro h
    have hvolatility := h refundSheet
    rw [reading_refundSheet, ← not_lt, TrendView.volatilityPct_neg_iff] at hvolatility
    refine hvolatility ⟨?_, ⟨2025, 1⟩, ⟨2025, 2⟩, ?_⟩
    · norm_num [Snapshot.totalRevenue_eq, Snapshot.withoutUndated, Row.amount]
    · norm_num [Snapshot.amountUnder, Row.month?, Row.amount]
  · intro h
    have hscore := (h refundSheet).2
    rw [reading_refundSheet, ← not_lt, ManagersView.stabilityScore_gt_iff] at hscore
    refine hscore ⟨?_, "Ana", "Bruno", ?_⟩
    · norm_num [Snapshot.totalRevenue_eq, Row.amount]
    · have hne : "Ana" ≠ "Bruno" := by decide
      norm_num [Snapshot.amountUnder, Row.managerKey?, Row.amount, List.filter_cons, hana, hbruno,
        hne, hne.symm]

end RevenueDesk
