/-
# The currency unit

The views are built from figures in some unit, and the unit is nowhere in them.  Counting the
revenue of every row in another one, which takes a factor above zero, multiplies every amount
that a view shows by the factor, and changes nothing else (`currencyUnit`).

What is an amount and what is not stands in `ExecutiveView.scaled` and its four siblings: they
list the fields that take the factor, and leave all others as they are.
-/
import Mathlib.Analysis.Real.Sqrt
import RevenueDesk.Dashboard.Designations
import RevenueDesk.Dashboard.Managers
import RevenueDesk.Dashboard.Skills
import RevenueDesk.Dashboard.Trend
import RevenueDesk.Proofs.Ledger.Scaling

namespace RevenueDesk

open Ledger

/-! ## Views in another unit -/

section Scaled

variable {K : Type} [Mul K] (c : K)

/-- The leader of a ranking in another unit: the share stays. -/
def TopEntry.scaled (t : TopEntry K) : TopEntry K := { t with revenue := c * t.revenue }

/-- A client in another unit. -/
def ClientEntry.scaled (e : ClientEntry K) : ClientEntry K := { e with revenue := c * e.revenue }

/-- A slice of the pie in another unit. -/
def PieSlice.scaled (p : PieSlice K) : PieSlice K := { p with value := c * p.value }

/-- A cell of the heat map in another unit: the intensity stays. -/
def HeatmapCell.scaled (h : HeatmapCell K) : HeatmapCell K := { h with revenue := c * h.revenue }

/-- A role in another unit. -/
def DesignationEntry.scaled (d : DesignationEntry K) : DesignationEntry K :=
  { d with revenue := c * d.revenue, avgRevenue := c * d.avgRevenue }

/-- The executive view in another unit: shares and concentration stay. -/
def ExecutiveView.scaled (v : ExecutiveView K) : ExecutiveView K :=
  { v with
    totalRevenue := c * v.totalRevenue
    avgRevenuePerClient := c * v.avgRevenuePerClient
    topClient := v.topClient.map (TopEntry.scaled c)
    clients := v.clients.map (ClientEntry.scaled c)
    pareto := v.pareto.map (ParetoPoint.scaled c) }

/-- The skills view in another unit: the dependency stays. -/
def SkillsView.scaled (v : SkillsView K) : SkillsView K :=
  { v with
    skillAttributedRevenue := c * v.skillAttributedRevenue
    topSkill := v.topSkill.map (TopEntry.scaled c)
    skills := v.skills.map (Group.scaled c)
    pie := v.pie.map (PieSlice.scaled c)
    heatmap := v.heatmap.map (HeatmapCell.scaled c) }

/-- The designations view in another unit. -/
def DesignationsView.scaled (v : DesignationsView K) : DesignationsView K :=
  { v with
    totalRevenue := c * v.totalRevenue
    avgRevenuePerRole := c * v.avgRevenuePerRole
    topRole := v.topRole.map (TopEntry.scaled c)
    avgEfficiency := c * v.avgEfficiency
    designations := v.designations.map (DesignationEntry.scaled c) }

/-- The time view in another unit: growth and volatility stay. -/
def TrendView.scaled (v : TrendView K) : TrendView K :=
  { v with
    latestMonth := v.latestMonth.map (MonthEntry.scaled c)
    bestMonth := v.bestMonth.map (MonthEntry.scaled c)
    months := v.months.map (MonthEntry.scaled c) }

/-- The managers view in another unit: growth and stability stay. -/
def ManagersView.scaled (v : ManagersView K) : ManagersView K :=
  { v with
    quarterTotals := v.quarterTotals.scaled c
    topManager := v.topManager.map (TopEntry.scaled c)
    managers := v.managers.map (QuarterlyGroup.scaled c) }

end Scaled

/-! ## Views of rows in another unit -/

section Ordered

variable {K : Type} [Field K] [LinearOrder K] {c : K} (s : Snapshot K)

lemma Snapshot.source_scaled : (s.scaled c).source = s.source := by
  rw [source, source, scaled, List.length_map]

lemma Snapshot.totalRevenue_scaled : (s.scaled c).totalRevenue = c * s.totalRevenue := by
  have hamounts : (s.scaled c).rows.map Row.amount = (s.rows.map Row.amount).map (c * ·) := by
    rw [scaled, List.map_map, List.map_map]
    exact List.map_congr_left fun row _ => Row.amount_scaled row
  rw [totalRevenue, totalRevenue, hamounts, Amount.sum_eq_sum, Amount.sum_eq_sum, sum_map_mul]

lemma sum_revenue_scaled (groups : List (Group K)) :
    Amount.sum ((groups.map (Group.scaled c)).map Group.revenue) =
      c * Amount.sum (groups.map Group.revenue) := by
  rw [Amount.sum_eq_sum, Amount.sum_eq_sum]
  exact (totalOf_eq _).symm.trans ((totalOf_scaled groups).trans (congrArg _ (totalOf_eq _)))

variable [IsStrictOrderedRing K] (hc : 0 < c)
include hc

lemma TopEntry.of_mul (name : String) (revenue whole : K) :
    TopEntry.of name (c * revenue) (c * whole) = (TopEntry.of name revenue whole).scaled c := by
  rw [TopEntry.of, sharePct_mul hc]
  rfl

theorem ExecutiveView.of_scaled :
    ExecutiveView.of (s.scaled c) = (ExecutiveView.of s).scaled c := by
  have hclients : groupBy (s.scaled c).rows Row.customer =
      (groupBy s.rows Row.customer).map (Group.scaled c) :=
    groupByKeys_scaled hc (fun _ => rfl) s.rows
  simp only [ExecutiveView.of, ExecutiveView.scaled, hclients, s.source_scaled,
    s.totalRevenue_scaled, topWithOthers_scaled, pareto_scaled hc, concentration?_scaled hc,
    List.length_map, List.isEmpty_map, List.head?_map, Option.map_map, ← List.map_take,
    ← List.map_drop, sum_revenue_scaled, sharePct_mul hc]
  congr 1
  case e_avgRevenuePerClient => rw [mul_ite, Amount.zero_eq, mul_zero, mul_div_assoc]
  case e_topClient =>
    congr 1
    funext g
    exact TopEntry.of_mul hc _ g.revenue s.totalRevenue
  case e_clients =>
    rw [List.map_map, List.map_map]
    rfl
  case e_pareto =>
    rw [List.map_map, List.map_map]
    rfl

theorem SkillsView.of_scaled : SkillsView.of (s.scaled c) = (SkillsView.of s).scaled c := by
  have hskills : groupByEach (s.scaled c).rows Row.skill =
      (groupByEach s.rows Row.skill).map (Group.scaled c) :=
    groupByKeys_scaled hc (fun _ => rfl) s.rows
  have hleading : ((groupByEach s.rows Row.skill).head?.map
      (Group.revenue ∘ Group.scaled c)).getD Amount.zero =
      c * ((groupByEach s.rows Row.skill).head?.map Group.revenue).getD Amount.zero := by
    cases (groupByEach s.rows Row.skill).head? with
    | none => simp
    | some g => rfl
  simp only [SkillsView.of, SkillsView.scaled, hskills, s.source_scaled, totalOf_scaled,
    concentration?_scaled hc, List.head?_map, Option.map_map, hleading, ← List.map_take]
  congr 1
  case e_topSkill =>
    congr 1
    funext g
    exact TopEntry.of_mul hc g.key g.revenue _
  case e_pie =>
    rw [List.map_map, List.map_map]
    rfl
  case e_heatmap =>
    rw [List.map_map, List.map_map]
    refine List.map_congr_left fun g _ => ?_
    exact congrArg (HeatmapCell.mk g.key · (c * g.revenue)) (sharePct_mul hc g.revenue _)

theorem DesignationsView.of_scaled :
    DesignationsView.of (s.scaled c) = (DesignationsView.of s).scaled c := by
  have hroles : groupBy (s.scaled c).rows Row.designation =
      (groupBy s.rows Row.designation).map (Group.scaled c) :=
    groupByKeys_scaled hc (fun _ => rfl) s.rows
  have hentries : ∀ groups : List (Group K), (groups.map (Group.scaled c)).map entry =
      (groups.map entry).map (DesignationEntry.scaled c) := by
    intro groups
    rw [List.map_map, List.map_map]
    refine List.map_congr_left fun g _ => ?_
    exact congrArg (DesignationEntry.mk g.key (c * g.revenue) g.count) (mul_div_assoc _ _ _)
  have haverages : ∀ entries : List (DesignationEntry K),
      Amount.sum ((entries.map (DesignationEntry.scaled c)).map DesignationEntry.avgRevenue) =
        c * Amount.sum (entries.map DesignationEntry.avgRevenue) := by
    intro entries
    rw [Amount.sum_eq_sum, Amount.sum_eq_sum, ← sum_map_mul, List.map_map, List.map_map]
    rfl
  simp only [DesignationsView.of, DesignationsView.scaled, hroles, s.source_scaled,
    totalOf_scaled, countOf_scaled, hentries, haverages, List.head?_map, Option.map_map,
    List.isEmpty_map, List.length_map]
  congr 1
  case e_avgRevenuePerRole => rw [mul_ite, Amount.zero_eq, mul_zero, mul_div_assoc]
  case e_topRole =>
    congr 1
    funext g
    exact TopEntry.of_mul hc g.key g.revenue _
  case e_avgEfficiency => rw [mul_ite, Amount.zero_eq, mul_zero, mul_div_assoc]

end Ordered

section Real

variable {c : ℝ} (s : Snapshot ℝ) (hc : 0 < c)
include hc

lemma TrendView.better_scaled (best : Option (MonthEntry ℝ)) (m : MonthEntry ℝ) :
    better (best.map (MonthEntry.scaled c)) (m.scaled c) =
      (better best m).map (MonthEntry.scaled c) := by
  cases best with
  | none => rfl
  | some b =>
    have hle : Amount.le (c * m.revenue) (c * b.revenue) = Amount.le m.revenue b.revenue := by
      rw [Bool.eq_iff_iff, Amount.le_iff, Amount.le_iff, mul_le_mul_iff_right₀ hc]
    simp only [Option.map_some, better, MonthEntry.scaled, hle]
    split <;> rfl

lemma TrendView.foldl_better_scaled (months : List (MonthEntry ℝ)) (best : Option (MonthEntry ℝ)) :
    (months.map (MonthEntry.scaled c)).foldl better (best.map (MonthEntry.scaled c)) =
      (months.foldl better best).map (MonthEntry.scaled c) := by
  induction months generalizing best with
  | nil => rfl
  | cons m months ih =>
    rw [List.map_cons, List.foldl_cons, List.foldl_cons, better_scaled hc, ih]

theorem TrendView.of_scaled : TrendView.of (s.scaled c) = (TrendView.of s).scaled c := by
  have hmonths : monthOverMonth (monthlyTotals (s.scaled c).rows) =
      (monthOverMonth (monthlyTotals s.rows)).map (MonthEntry.scaled c) := by
    rw [Snapshot.scaled, monthlyTotals_scaled, monthOverMonth_scaled hc]
  have hbest : ∀ months : List (MonthEntry ℝ),
      (months.map (MonthEntry.scaled c)).foldl better none =
        (months.foldl better none).map (MonthEntry.scaled c) :=
    fun months => foldl_better_scaled hc months none
  have hgrowth : ∀ latest : Option (MonthEntry ℝ),
      (latest.map (MonthEntry.scaled c)).bind MonthEntry.growth =
        latest.bind MonthEntry.growth := by
    intro latest
    cases latest <;> rfl
  have hrevenues : ∀ months : List (MonthEntry ℝ),
      (months.map (MonthEntry.scaled c)).map MonthEntry.revenue =
        (months.map MonthEntry.revenue).map (c * ·) := by
    intro months
    rw [List.map_map, List.map_map]
    rfl
  simp only [TrendView.of, TrendView.scaled, hmonths, hbest, hgrowth, hrevenues, s.source_scaled,
    variationPct?_mul hc, List.getLast?_map, List.length_map]

theorem ManagersView.of_scaled : ManagersView.of (s.scaled c) = (ManagersView.of s).scaled c := by
  have hmanagers : quarterlyBy (s.scaled c).rows Row.manager =
      (quarterlyBy s.rows Row.manager).map (QuarterlyGroup.scaled c) :=
    quarterlyBy_scaled hc (fun _ => rfl) s.rows
  have hquarters : calendarQuarters (s.scaled c).rows =
      (calendarQuarters s.rows).map (Prod.map id (c * ·)) :=
    calendarQuarters_scaled s.rows
  have htotals : ∀ managers : List (QuarterlyGroup ℝ),
      ((managers.map (QuarterlyGroup.scaled c)).map QuarterlyGroup.quarters).foldl
          Breakdown.merge .zero =
        ((managers.map QuarterlyGroup.quarters).foldl Breakdown.merge .zero).scaled c := by
    intro managers
    rw [← Breakdown.foldl_merge_scaled, Breakdown.scaled_zero, List.map_map, List.map_map]
    rfl
  have hrevenues : ∀ managers : List (QuarterlyGroup ℝ),
      (managers.map (QuarterlyGroup.scaled c)).map QuarterlyGroup.revenue =
        (managers.map QuarterlyGroup.revenue).map (c * ·) := by
    intro managers
    rw [List.map_map, List.map_map]
    rfl
  simp only [ManagersView.of, ManagersView.scaled, hmanagers, hquarters, htotals, hrevenues,
    s.source_scaled, quarterOverQuarter?_scaled hc, variationPct?_mul hc, List.head?_map,
    Option.map_map, Breakdown.total_scaled]
  congr 1
  case e_topManager =>
    congr 1
    funext m
    exact TopEntry.of_mul hc m.key m.revenue _

end Real

/-! ## All views -/

/-- The views of the snapshot `s`, with its revenues times `c`, are the views of `s` with their
amounts times `c`. -/
structure UnitFree (c : ℝ) (s : Snapshot ℝ) : Prop where
  executive : ExecutiveView.of (s.scaled c) = (ExecutiveView.of s).scaled c
  skills : SkillsView.of (s.scaled c) = (SkillsView.of s).scaled c
  designations : DesignationsView.of (s.scaled c) = (DesignationsView.of s).scaled c
  trend : TrendView.of (s.scaled c) = (TrendView.of s).scaled c
  managers : ManagersView.of (s.scaled c) = (ManagersView.of s).scaled c

/-- The unit of revenue shows in the amounts of the views and nowhere else, with the figures read
as real numbers. -/
theorem currencyUnit {α : Type} [Amount α] (value : α → ℝ) (s : Snapshot α) {c : ℝ}
    (hc : 0 < c) : UnitFree c (s.reading value) where
  executive := ExecutiveView.of_scaled _ hc
  skills := SkillsView.of_scaled _ hc
  designations := DesignationsView.of_scaled _ hc
  trend := TrendView.of_scaled _ hc
  managers := ManagersView.of_scaled _ hc

theorem currencyUnit_cents :
    (0 : ℝ) < 100 ∧ UnitFree 100 (raggedSheet.reading (Binary64.value : Binary64 → ℝ)) := by
  have hcents : (0 : ℝ) < 100 := by norm_num
  exact ⟨hcents, currencyUnit Binary64.value raggedSheet hcents⟩

end RevenueDesk
