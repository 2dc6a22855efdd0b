/-
# The figures of the skills view

A row counts for each of its skills with its whole revenue.  What the skills have together is
therefore the revenue of the rows and, once more, what rows with several skills are counted again
for (`totalOf_groupByEach`).  The shares of the view are taken of two different figures: that of the
leading skill of this total, and the intensities of the heat map of the leading skill itself.

Read exactly, all of this goes together (`skillFigures`):

* pie and heat map show the head of the ranking;
* intensities go down from one hundred, and without negative revenues they stay above zero;
* the total is that of the rows exactly if no revenue is counted twice.
-/
import Mathlib.Algebra.BigOperators.Ring.List
import RevenueDesk.Dashboard.Skills
import RevenueDesk.Proofs.Ledger.Reference
import RevenueDesk.Proofs.Ledger.Squares

namespace RevenueDesk

open Ledger

/-! ## Revenue that is counted again -/

section Again

variable {K : Type} [Field K] [LinearOrder K]

/-- What a row is counted for once it has been counted once. -/
noncomputable def Row.again (field : Row K → Option String) (row : Row K) : K :=
  row.amount * ((valueCount (field row) - 1 : ℕ) : K)

/-- The groups have the revenue of the rows, and what is counted again. -/
theorem Ledger.totalOf_groupByEach (rows : List (Row K)) (field : Row K → Option String) :
    totalOf (groupByEach rows field) =
      (rows.map Row.amount).sum + (rows.map (Row.again field)).sum := by
  have hrow : ∀ row : Row K, row.amount * ((keysOf (field row)).length : K) =
      row.amount + row.again field := by
    intro row
    have hkeys : (keysOf (field row)).length = 1 + (valueCount (field row) - 1) := by
      rw [length_keysOf]
      omega
    rw [hkeys, Nat.cast_add, Nat.cast_one, mul_add, mul_one, Row.again]
  rw [groupByEach, totalOf_groupByKeys, ← List.sum_map_add]
  simp only [hrow]

variable [IsStrictOrderedRing K] {rows : List (Row K)} {field : Row K → Option String}
  (h : ∀ row ∈ rows, 0 ≤ row.amount)
include h

lemma again_nonneg : ∀ x ∈ rows.map (Row.again field), 0 ≤ x := by
  rw [List.forall_mem_map]
  exact fun row hrow => mul_nonneg (h row hrow) (Nat.cast_nonneg _)

theorem Ledger.sum_amount_le_totalOf :
    (rows.map Row.amount).sum ≤ totalOf (groupByEach rows field) := by
  rw [totalOf_groupByEach]
  exact le_add_of_nonneg_right (List.sum_nonneg (again_nonneg h))

/-- Nothing is counted again if every row has a single value or no revenue. -/
theorem Ledger.totalOf_eq_sum_amount_iff :
    totalOf (groupByEach rows field) = (rows.map Row.amount).sum ↔
      ∀ row ∈ rows, valueCount (field row) ≤ 1 ∨ row.amount = 0 := by
  rw [totalOf_groupByEach, add_eq_left, sum_eq_zero_iff_of_nonneg (again_nonneg h),
    List.forall_mem_map]
  refine forall₂_congr fun row _ => ?_
  rw [Row.again, mul_eq_zero, Nat.cast_eq_zero, Nat.sub_eq_zero_iff_le, or_comm]

end Again

/-! ## Shares -/

section Shares

variable {K : Type} [Field K] [LinearOrder K] {part whole : K}

lemma Ledger.sharePct_eq : sharePct part whole = if 0 < whole then part / whole * 100 else 0 := by
  split
  · rename_i hpos
    exact sharePct_of_pos hpos
  · rename_i hpos
    exact sharePct_of_nonpos (not_lt.mp hpos)

variable [IsStrictOrderedRing K]

/-- A larger part has no smaller share. -/
lemma Ledger.sharePct_mono {part' : K} (h : part ≤ part') :
    sharePct part whole ≤ sharePct part' whole := by
  rw [sharePct_eq, sharePct_eq]
  split
  · gcongr
  · exact le_rfl

/-- A part of a figure has a share between zero and one hundred. -/
lemma Ledger.sharePct_mem_Icc (hpart : 0 ≤ part) (hle : part ≤ whole) :
    sharePct part whole ∈ Set.Icc 0 100 := by
  rw [sharePct_eq]
  split
  · rename_i hpos
    have hone : part / whole ≤ 1 := (div_le_one hpos).mpr hle
    exact ⟨by positivity, by linarith⟩
  · exact ⟨le_rfl, by norm_num⟩

end Shares

/-! ## The view of exact figures -/

namespace SkillsView

/-- The revenue of the leading skill, and zero if there is none. -/
def leadingRevenue {α : Type} [Amount α] (view : SkillsView α) : α :=
  (view.skills.head?.map Group.revenue).getD Amount.zero

section Exact

variable {K : Type} [Field K] [LinearOrder K] (s : Snapshot K)

/-- The intensity of a skill is its share of the leading one. -/
lemma map_intensity : (SkillsView.of s).heatmap.map HeatmapCell.intensity =
    (((SkillsView.of s).skills.take heatmapCells).map Group.revenue).map
      (sharePct · (SkillsView.of s).leadingRevenue) := by
  rw [List.map_map]
  exact List.map_map ..

variable {s}

/-- No skill has more revenue than the leading one. -/
lemma revenue_le_leadingRevenue {g : Group K} (hg : g ∈ (SkillsView.of s).skills) :
    g.revenue ≤ (SkillsView.of s).leadingRevenue := by
  unfold leadingRevenue
  cases hhead : (SkillsView.of s).skills.head? with
  | none =>
    rw [List.head?_eq_none_iff] at hhead
    simp [hhead] at hg
  | some leader => exact revenue_le_of_head? (descending_groupByKeys _ _) hhead hg

/-- The leading skill is shown first, with all of the intensity. -/
lemma head?_intensity (hpos : 0 < (SkillsView.of s).leadingRevenue) :
    ((SkillsView.of s).heatmap.map HeatmapCell.intensity).head? = some 100 := by
  rw [map_intensity]
  cases hskills : (SkillsView.of s).skills with
  | nil => simp [leadingRevenue, hskills] at hpos
  | cons leader rest =>
    have hleader : (SkillsView.of s).leadingRevenue = leader.revenue := by
      rw [leadingRevenue, hskills]
      rfl
    rw [hleader] at hpos ⊢
    change some (sharePct leader.revenue leader.revenue) = some 100
    rw [sharePct_of_pos hpos, div_self hpos.ne', one_mul]

variable [IsStrictOrderedRing K]

lemma descending_intensity :
    ((SkillsView.of s).heatmap.map HeatmapCell.intensity).Pairwise (· ≥ ·) := by
  have hdesc : ((SkillsView.of s).skills.map Group.revenue).Pairwise (· ≥ ·) :=
    descending_groupByKeys _ _
  rw [map_intensity, List.map_take, List.pairwise_map]
  exact (hdesc.sublist (List.take_sublist _ _)).imp fun hge => sharePct_mono hge

/-- Without negative revenues no skill has a negative one. -/
lemma revenue_nonneg (h : ∀ row ∈ s.rows, 0 ≤ row.amount) {g : Group K}
    (hg : g ∈ (SkillsView.of s).skills) : 0 ≤ g.revenue := by
  rw [(groupByKeys_spec (fun _ => nodup_keysOf) hg).1, Amount.total_eq_sum]
  refine List.sum_nonneg ?_
  rw [List.forall_mem_map]
  exact fun row hrow => h row (List.mem_of_mem_filter hrow)

lemma intensity_mem_Icc (h : ∀ row ∈ s.rows, 0 ≤ row.amount) {x : K}
    (hx : x ∈ (SkillsView.of s).heatmap.map HeatmapCell.intensity) : x ∈ Set.Icc 0 100 := by
  rw [map_intensity, List.map_map] at hx
  obtain ⟨g, hg, rfl⟩ := List.mem_map.mp hx
  have hskill := List.mem_of_mem_take hg
  exact sharePct_mem_Icc (revenue_nonneg h hskill) (revenue_le_leadingRevenue hskill)

end Exact

end SkillsView

/-! ## Rows of any figures -/

section Reading

variable {α : Type} [Amount α] {K : Type} [Field K] [LinearOrder K]

/-- The figures of a skills view go together, and with the rows. -/
structure SkillFigures (value : α → K) (rows : List (Row α)) (view : SkillsView K) : Prop where
  /-- The skills are the groups of the rows by each of their skills, in ranking order. -/
  ranking : IsGrouping (fun row key => BelongsTo (Lists row.skill) key)
    (rows.map (Row.reading value)) view.skills
  pie_length : view.pie.length = min 6 view.skills.length
  /-- The pie shows the first skills. -/
  pie : view.pie.map (fun slice => (slice.name, slice.value)) =
    (view.skills.take 6).map fun g => (g.key, g.revenue)
  heatmap_length : view.heatmap.length = min 8 view.skills.length
  /-- So does the heat map. -/
  heatmap : view.heatmap.map (fun cell => (cell.skill, cell.revenue)) =
    (view.skills.take 8).map fun g => (g.key, g.revenue)
  /-- Intensities begin with one hundred. -/
  hottest : 0 < view.leadingRevenue →
    (view.heatmap.map HeatmapCell.intensity).head? = some 100
  /-- They never go up. -/
  cooling : (view.heatmap.map HeatmapCell.intensity).Pairwise (· ≥ ·)
  inScale : (∀ row ∈ rows, 0 ≤ row.worth value) →
    ∀ cell ∈ view.heatmap, cell.intensity ∈ Set.Icc 0 100
  /-- They are zero if the leading skill has no revenue. -/
  cold : view.leadingRevenue ≤ 0 → ∀ cell ∈ view.heatmap, cell.intensity = 0
  attributed : view.skillAttributedRevenue = (view.skills.map Group.revenue).sum
  /-- Skills have no less revenue than the rows. -/
  atLeast : (∀ row ∈ rows, 0 ≤ row.worth value) →
    (rows.map (Row.worth value)).sum ≤ view.skillAttributedRevenue
  /-- They have the same if rows with revenue have one skill at most. -/
  countedOnce : (∀ row ∈ rows, 0 ≤ row.worth value) →
    (view.skillAttributedRevenue = (rows.map (Row.worth value)).sum ↔
      ∀ row ∈ rows, valueCount row.skill ≤ 1 ∨ row.worth value = 0)
  /-- The leading skill is the first one, with its share of all skills. -/
  topSkill : view.topSkill = view.skills.head?.map fun g =>
    ⟨g.key, g.revenue, if 0 < view.skillAttributedRevenue
      then g.revenue / view.skillAttributedRevenue * 100 else 0⟩

variable [IsStrictOrderedRing K]

/-- The figures of the skills view go together. -/
theorem skillFigures (value : α → K) (s : Snapshot α) :
    SkillFigures value s.rows (SkillsView.of (s.reading value)) := by
  have hworth : (s.reading value).rows.map Row.amount = s.rows.map (Row.worth value) := by
    rw [Snapshot.reading, List.map_map]
    exact List.map_congr_left fun row _ => Row.amount_reading value row
  have hnonneg : (∀ row ∈ s.rows, 0 ≤ row.worth value) →
      ∀ row ∈ (s.reading value).rows, 0 ≤ row.amount := by
    intro h
    rw [Snapshot.reading, List.forall_mem_map]
    simpa only [Row.amount_reading] using h
  have hranking : IsGrouping (fun row key => BelongsTo (Lists row.skill) key)
      (s.reading value).rows (groupByEach (s.reading value).rows Row.skill) := by
    refine isGrouping_groupByKeys (fun row => nodup_keysOf) (fun row key => ?_) _
    exact belongsTo_lists_iff
  exact
    { ranking := hranking
      pie_length := (List.length_map _).trans List.length_take
      pie := List.map_map ..
      heatmap_length := (List.length_map _).trans List.length_take
      heatmap := List.map_map ..
      hottest := SkillsView.head?_intensity
      cooling := SkillsView.descending_intensity
      inScale := fun h cell hcell =>
        SkillsView.intensity_mem_Icc (hnonneg h) (List.mem_map_of_mem hcell)
      cold := by
        intro hcold cell hcell
        obtain ⟨g, -, rfl⟩ := List.mem_map.mp hcell
        exact sharePct_of_nonpos hcold
      attributed := totalOf_eq _
      atLeast := fun h => by
        rw [← hworth]
        exact sum_amount_le_totalOf (hnonneg h)
      countedOnce := fun h => by
        rw [← hworth]
        refine (totalOf_eq_sum_amount_iff (hnonneg h)).trans ?_
        rw [Snapshot.reading, List.forall_mem_map]
        simp only [Row.amount_reading]
        rfl
      topSkill := by
        simp only [← sharePct_eq]
        rfl }

end Reading

/-- One row with two skills. -/
def twoSkillsSheet : Snapshot ℚ := ⟨[⟨none, none, some "Rust, SQL", none, none, some 5⟩], false⟩

/-- Its skills have more revenue than it has. -/
theorem skillFigures_twoSkills :
    SkillFigures id twoSkillsSheet.rows (SkillsView.of (twoSkillsSheet.reading id)) ∧
      (SkillsView.of (twoSkillsSheet.reading id)).skillAttributedRevenue ≠
        (twoSkillsSheet.rows.map (Row.worth id)).sum := by
  have hworth : ∀ row ∈ twoSkillsSheet.rows, row.worth id = (5 : ℚ) := by
    simp [twoSkillsSheet, Row.worth]
  have hskills : ∀ row ∈ twoSkillsSheet.rows, valueCount row.skill = 2 := by
    rw [twoSkillsSheet, List.forall_mem_singleton, ← length_valuesOf]
    decide
  have hfigures := skillFigures id twoSkillsSheet
  refine ⟨hfigures, fun hsame => ?_⟩
  have honce := (hfigures.countedOnce fun row hrow => by norm_num [hworth row hrow]).mp hsame
  have hrow : (⟨none, none, some "Rust, SQL", none, none, some 5⟩ : Row ℚ) ∈ twoSkillsSheet.rows :=
    List.mem_singleton_self _
  rcases honce _ hrow with hcount | hzero
  · rw [hskills _ hrow] at hcount
    omega
  · rw [hworth _ hrow] at hzero
    norm_num at hzero

end RevenueDesk
