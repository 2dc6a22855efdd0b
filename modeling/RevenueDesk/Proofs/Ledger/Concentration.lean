/-
# Between even and single

The concentration index of groups is the sum of the squares of their parts of the total
(`concentration?_eq_sumSq`).  The parts add up to one, so the index lies between one over the
number of groups and one.  It has the first value if all groups have the same revenue, and the
second if one of them has it all.  Groups that are merged have a larger square together than
apart, so collapsing the end of a ranking does not lower the index
(`exists_concentrationBounds`).
-/
import RevenueDesk.Proofs.Ledger.Grouping
import RevenueDesk.Proofs.Ledger.Squares

namespace RevenueDesk.Ledger

variable {K : Type} [Field K] [LinearOrder K] {groups : List (Group K)}

/-! ## Parts of the total -/

/-- The part of the total that each group has. -/
noncomputable def partsOf (groups : List (Group K)) : List K :=
  groups.map fun g => g.revenue / totalOf groups

/-- The index is the sum of the squared parts. -/
lemma concentration?_eq_sumSq (hpos : 0 < totalOf groups) :
    concentration? groups = some (sumSq (partsOf groups)) := by
  have hsquares : (groups.map fun g => Amount.square (g.revenue / totalOf groups)) =
      (partsOf groups).map (· ^ 2) := by
    rw [partsOf, List.map_map]
    exact List.map_congr_left fun g _ => (sq (g.revenue / totalOf groups)).symm
  rw [concentration?, if_pos (sharable_iff.mpr hpos), Amount.sum_eq_sum, hsquares, sumSq]

lemma sum_map_div (gs : List (Group K)) (whole : K) :
    (gs.map fun g => g.revenue / whole).sum = totalOf gs / whole := by
  simp only [totalOf_eq, div_eq_mul_inv, List.sum_map_mul_right]

lemma sum_partsOf (hpos : 0 < totalOf groups) : (partsOf groups).sum = 1 := by
  rw [partsOf, sum_map_div, div_self hpos.ne']

lemma length_partsOf (groups : List (Group K)) : (partsOf groups).length = groups.length :=
  List.length_map _

/-- Merging groups adds up their parts. -/
lemma partsOf_topWithOthers {n : ℕ} (hn : ¬ groups.length ≤ n) :
    partsOf (topWithOthers n groups) =
      (partsOf groups).take n ++ [((partsOf groups).drop n).sum] := by
  have hmerged : ((partsOf groups).drop n).sum =
      (merged (groups.drop n)).revenue / totalOf groups := by
    rw [partsOf, ← List.map_drop, sum_map_div]
    rfl
  rw [partsOf, totalOf_topWithOthers, topWithOthers, if_neg hn, List.map_append, List.map_take,
    hmerged]
  rfl

section Parts

variable (hpos : 0 < totalOf groups)
include hpos

/-- A group has a part exactly if it has revenue. -/
lemma countP_partsOf :
    (partsOf groups).countP (· ≠ 0) = groups.countP fun g => g.revenue ≠ 0 := by
  rw [partsOf, List.countP_map]
  simp [Function.comp_def, hpos.ne']

lemma forall_partsOf_eq_iff :
    (∀ x ∈ partsOf groups, ∀ y ∈ partsOf groups, x = y) ↔
      ∀ g ∈ groups, ∀ g' ∈ groups, g.revenue = g'.revenue := by
  simp [partsOf, div_left_inj' hpos.ne']

/-- Parts that add up to one are not all zero. -/
lemma countP_partsOf_pos : 0 < (partsOf groups).countP (· ≠ 0) := by
  refine countP_ne_zero_pos ?_
  rw [sum_partsOf hpos]
  exact one_ne_zero

end Parts

/-! ## Bounds -/

variable (groups) in
/-- The range of the index of groups, the groups at either end of it, and what collapsing does
to it. -/
structure ConcentrationBounds (index : K) : Prop where
  least : 1 / groups.length ≤ index
  most : index ≤ 1
  /-- It is one if a single group has all the revenue. -/
  single : index = 1 ↔ groups.countP (fun g => g.revenue ≠ 0) = 1
  /-- It is one over the number of groups if they have the same revenue. -/
  even : index = 1 / groups.length ↔ ∀ g ∈ groups, ∀ g' ∈ groups, g.revenue = g'.revenue
  /-- Collapsing the end of the list does not lower it. -/
  collapsed : ∀ n, ∃ index', concentration? (topWithOthers n groups) = some index' ∧
    index ≤ index'

section Bounds

variable [IsStrictOrderedRing K] (h : ∀ g ∈ groups, 0 ≤ g.revenue) (hpos : 0 < totalOf groups)
include h hpos

lemma partsOf_nonneg : ∀ x ∈ partsOf groups, 0 ≤ x := by
  rw [partsOf, List.forall_mem_map]
  exact fun g hg => div_nonneg (h g hg) hpos.le

lemma sumSq_partsOf_le_topWithOthers (n : ℕ) :
    sumSq (partsOf groups) ≤ sumSq (partsOf (topWithOthers n groups)) := by
  by_cases hn : groups.length ≤ n
  · rw [topWithOthers, if_pos hn]
  · have hnonneg := partsOf_nonneg h hpos
    have hend : sumSq ((partsOf groups).drop n) ≤ ((partsOf groups).drop n).sum ^ 2 :=
      sumSq_le_sq_sum fun x hx => hnonneg x (List.mem_of_mem_drop hx)
    calc sumSq (partsOf groups)
        = sumSq ((partsOf groups).take n) + sumSq ((partsOf groups).drop n) := by
          rw [← sumSq_append, List.take_append_drop]
      _ ≤ sumSq ((partsOf groups).take n) + ((partsOf groups).drop n).sum ^ 2 := by gcongr
      _ = sumSq (partsOf (topWithOthers n groups)) := by
          rw [partsOf_topWithOthers hn, sumSq_append, sumSq_cons, sumSq_nil, add_zero]

/-- Groups with a positive total, none of them negative, have an index within its bounds. -/
theorem exists_concentrationBounds :
    ∃ index, concentration? groups = some index ∧ ConcentrationBounds groups index := by
  have hnonneg := partsOf_nonneg h hpos
  have hsum := sum_partsOf hpos
  have hleast := sq_sum_div_length_le (partsOf groups)
  have heven := sq_sum_div_length_eq_iff (partsOf groups)
  have hmost := sumSq_le_sq_sum hnonneg
  have hsingle := sumSq_eq_sq_sum_iff hnonneg
  rw [hsum, one_pow, length_partsOf] at hleast heven
  rw [hsum, one_pow] at hmost hsingle
  refine ⟨sumSq (partsOf groups), concentration?_eq_sumSq hpos, ?_⟩
  exact
    { least := hleast
      most := hmost
      single := by
        have hsome := countP_partsOf_pos hpos
        rw [hsingle, ← countP_partsOf hpos]
        omega
      even := by rw [eq_comm, heven, forall_partsOf_eq_iff hpos]
      collapsed := fun n =>
        ⟨_, concentration?_eq_sumSq (hpos.trans_eq (totalOf_topWithOthers n groups).symm),
          sumSq_partsOf_le_topWithOthers h hpos n⟩ }

end Bounds

/-- Three groups, one of them without revenue. -/
def threeGroups : List (Group ℚ) := [⟨"Ana", 3, 2⟩, ⟨"Bruno", 1, 1⟩, ⟨"Carla", 0, 4⟩]

theorem exists_concentrationBounds_three :
    (∀ g ∈ threeGroups, 0 ≤ g.revenue) ∧ 0 < totalOf threeGroups ∧
      ∃ index, concentration? threeGroups = some index ∧
        ConcentrationBounds threeGroups index := by
  have hnonneg : ∀ g ∈ threeGroups, 0 ≤ g.revenue := by simp [threeGroups]
  have hpos : 0 < totalOf threeGroups := by
    rw [totalOf_eq]
    norm_num [threeGroups]
  exact ⟨hnonneg, hpos, exists_concentrationBounds hnonneg hpos⟩

end RevenueDesk.Ledger
