/-
# Variation

Variation is the standard deviation over the mean, in percent (`variationPct?_eq`).  A standard
deviation is not negative, but a mean may be: variation has the sign of the sum, unless all
figures are equal (`variation_neg_iff`).

For figures that are not negative variation has a range, which depends on their number alone
(`variationRange`).  Its square is that of the sum of the squares against the square of the sum
(`sq_variation`), so it is smallest if all figures are equal, and largest if all but one are zero.
-/
import RevenueDesk.Proofs.Ledger.Scaling
import RevenueDesk.Proofs.Ledger.Squares

namespace RevenueDesk.Ledger

/-- The standard deviation of a whole population. -/
noncomputable def deviationOf (values : List ℝ) : ℝ := √(sumSq (deviations values) / values.length)

variable (values : List ℝ)

theorem variationPct?_eq : variationPct? values =
    if meanOf values = 0 then none else some (deviationOf values / meanOf values * 100) := by
  have hsquares : ∀ mean : ℝ, (values.map fun v => Amount.square (v - mean)) =
      (values.map (· - mean)).map (· ^ 2) := by
    intro mean
    rw [List.map_map]
    exact List.map_congr_left fun v _ => (sq (v - mean)).symm
  by_cases hnil : values = []
  · simp [hnil, variationPct?, meanOf]
  · simp only [variationPct?, List.isEmpty_iff, hnil, if_false, Amount.same_iff, Amount.sum_eq_sum,
      Amount.zero_eq, Amount.hundred_eq, Amount.ofNat_eq, Amount.sqrt_eq, hsquares]
    rfl

/-- Variation, and zero if the mean is zero. -/
lemma getD_variationPct? :
    (variationPct? values).getD 0 = deviationOf values / meanOf values * 100 := by
  rw [variationPct?_eq]
  split
  · rename_i hmean
    rw [hmean, div_zero, zero_mul]
    rfl
  · rfl

lemma deviationOf_pos_iff : 0 < deviationOf values ↔ ∃ x ∈ values, ∃ y ∈ values, x ≠ y := by
  by_cases hnil : values = []
  · simp [hnil, deviationOf, deviations]
  have hlength : 0 < (values.length : ℝ) := by simpa [List.length_pos_iff] using hnil
  rw [deviationOf, Real.sqrt_pos, div_pos_iff_of_pos_right hlength,
    (sumSq_nonneg _).lt_iff_ne', Ne, sumSq_deviations_eq_zero_iff]
  push Not
  rfl

lemma meanOf_neg_iff : meanOf values < 0 ↔ values.sum < 0 := by
  by_cases hnil : values = []
  · simp [hnil, meanOf]
  have hlength : 0 < (values.length : ℝ) := by simpa [List.length_pos_iff] using hnil
  rw [meanOf, div_lt_iff₀ hlength, zero_mul]

lemma meanOf_pos_iff : 0 < meanOf values ↔ 0 < values.sum := by
  by_cases hnil : values = []
  · simp [hnil, meanOf]
  have hlength : 0 < (values.length : ℝ) := by simpa [List.length_pos_iff] using hnil
  rw [meanOf, div_pos_iff_of_pos_right hlength]

/-- Variation is negative if the sum is, unless all figures are equal. -/
theorem variation_neg_iff : (variationPct? values).getD 0 < 0 ↔
    values.sum < 0 ∧ ∃ x ∈ values, ∃ y ∈ values, x ≠ y := by
  have hdeviation : 0 ≤ deviationOf values := Real.sqrt_nonneg _
  rw [getD_variationPct?, ← lt_div_iff₀ (by norm_num), zero_div, div_neg_iff,
    or_iff_left (fun h => hdeviation.not_gt h.1), deviationOf_pos_iff, meanOf_neg_iff, and_comm]

/-! ## Range -/

/-- Only an empty list and one with mean zero have no variation. -/
lemma variationPct?_eq_none_iff :
    variationPct? values = none ↔ values = [] ∨ meanOf values = 0 := by
  rw [variationPct?_eq]
  split
  · rename_i hmean
    simp [hmean]
  · rename_i hmean
    have hne : values ≠ [] := by
      rintro rfl
      exact hmean (by simp [meanOf])
    simp [hmean, hne]

variable {values} in
/-- The order of the figures does not show. -/
lemma variationPct?_eq_of_perm {values' : List ℝ} (h : values.Perm values') :
    variationPct? values = variationPct? values' := by
  have hmean : meanOf values = meanOf values' := by
    rw [meanOf, meanOf, h.sum_eq, h.length_eq]
  have hdeviation : deviationOf values = deviationOf values' := by
    have hsquares : sumSq (deviations values) = sumSq (deviations values') := by
      rw [deviations, deviations, hmean]
      exact ((h.map _).map _).sum_eq
    rw [deviationOf, deviationOf, hsquares, h.length_eq]
  rw [variationPct?_eq, variationPct?_eq, hmean, hdeviation]

section Sum

variable {values} (hsum : values.sum ≠ 0)
include hsum

lemma length_pos_of_sum_ne_zero : 0 < (values.length : ℝ) := by
  rw [Nat.cast_pos, List.length_pos_iff]
  rintro rfl
  exact hsum List.sum_nil

/-- The square of variation compares the sum of the squares with the square of the sum. -/
lemma sq_variation : (deviationOf values / meanOf values * 100) ^ 2 =
    100 ^ 2 * (values.length * (sumSq values / values.sum ^ 2) - 1) := by
  have hlength := length_pos_of_sum_ne_zero hsum
  have hvariance : 0 ≤ sumSq (deviations values) / values.length :=
    div_nonneg (sumSq_nonneg _) (Nat.cast_nonneg _)
  rw [mul_pow, div_pow, deviationOf, Real.sq_sqrt hvariance, sumSq_deviations, meanOf]
  field_simp

end Sum

/-- The range of the variation of figures that are not negative. -/
structure VariationBounds (v : ℝ) : Prop where
  nonneg : 0 ≤ v
  /-- It is zero if all figures are equal. -/
  even : v = 0 ↔ ∀ x ∈ values, ∀ y ∈ values, x = y
  most : v ^ 2 ≤ 100 ^ 2 * (values.length - 1)
  /-- It is largest if a single figure is not zero. -/
  single : v ^ 2 = 100 ^ 2 * (values.length - 1) ↔ values.countP (· ≠ 0) = 1

section Bounds

variable {values} (h : ∀ x ∈ values, 0 ≤ x) (hpos : 0 < meanOf values)
include h hpos

lemma exists_variationBounds : ∃ v, variationPct? values = some v ∧ VariationBounds values v := by
  have hsum : 0 < values.sum := (meanOf_pos_iff values).mp hpos
  have hlength := length_pos_of_sum_ne_zero hsum.ne'
  have hdeviation : 0 ≤ deviationOf values := Real.sqrt_nonneg _
  have hleast : sumSq values / values.sum ^ 2 ≤ 1 := by
    rw [div_le_one (pow_pos hsum 2)]
    exact sumSq_le_sq_sum h
  have hsingle : sumSq values / values.sum ^ 2 = 1 ↔ values.countP (· ≠ 0) = 1 := by
    have hsome := countP_ne_zero_pos hsum.ne'
    rw [div_eq_one_iff_eq (pow_pos hsum 2).ne', sumSq_eq_sq_sum_iff h]
    omega
  refine ⟨deviationOf values / meanOf values * 100, ?_, ?_⟩
  · rw [variationPct?_eq, if_neg hpos.ne']
  exact
    { nonneg := mul_nonneg (div_nonneg hdeviation hpos.le) (by norm_num)
      even := by
        have hzero : deviationOf values = 0 ↔ ¬ 0 < deviationOf values :=
          ⟨fun heq => heq.not_gt, fun hle => hdeviation.antisymm' (not_lt.mp hle)⟩
        rw [mul_eq_zero, or_iff_left (by norm_num), div_eq_zero_iff, or_iff_left hpos.ne', hzero,
          deviationOf_pos_iff]
        push Not
        rfl
      most := by
        rw [sq_variation hsum.ne']
        have hscaled := mul_le_mul_of_nonneg_left hleast hlength.le
        linarith
      single := by
        rw [sq_variation hsum.ne', ← hsingle, mul_right_inj' (by norm_num), sub_left_inj,
          mul_eq_left₀ hlength.ne'] }

end Bounds

/-- What variation depends on, and within which bounds. -/
structure VariationRange : Prop where
  /-- It is missing if there are no figures, or if their mean is zero. -/
  missing : variationPct? values = none ↔ values = [] ∨ meanOf values = 0
  order : ∀ values', values.Perm values' → variationPct? values = variationPct? values'
  /-- Figures that are not negative have a variation within bounds. -/
  bounds : (∀ x ∈ values, 0 ≤ x) → 0 < meanOf values →
    ∃ v, variationPct? values = some v ∧ VariationBounds values v

theorem variationRange : VariationRange values where
  missing := variationPct?_eq_none_iff values
  order _ := variationPct?_eq_of_perm
  bounds := exists_variationBounds

end RevenueDesk.Ledger
