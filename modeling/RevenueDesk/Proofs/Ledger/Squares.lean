/-
# Sums of squares

Concentration is a sum of squares, and so is the variance, up to a factor.  A sum of squares has
the square of the sum between two of its multiples:

* `sq_sum_div_length_le`, `sq_sum_div_length_eq_iff`: over the number of the figures, the square
  of their sum is at most the sum of the squares, and the same only if all figures are equal;
* `sumSq_le_sq_sum`, `sumSq_eq_sq_sum_iff`: if no figure is negative, the sum of the squares is at
  most the square of the sum, and the same only if no two figures are different from zero.

The first of them comes from the squared deviations from the mean, which are what is missing
(`sumSq_deviations`).
-/
import Mathlib.Algebra.BigOperators.Ring.List
import Mathlib.Algebra.Order.BigOperators.Group.List
import Mathlib.Algebra.Order.Field.Basic
import Mathlib.Data.Nat.Cast.Order.Ring
import Mathlib.Tactic.FieldSimp
import Mathlib.Tactic.Linarith
import Mathlib.Tactic.Ring

namespace RevenueDesk.Ledger

variable {K : Type} [Field K]

/-- The sum of the squares. -/
def sumSq (xs : List K) : K := (xs.map (· ^ 2)).sum

/-- The mean; zero of nothing. -/
def meanOf (xs : List K) : K := xs.sum / xs.length

/-- How far the figures are from their mean. -/
def deviations (xs : List K) : List K := xs.map (· - meanOf xs)

@[simp] lemma sumSq_nil : sumSq ([] : List K) = 0 := rfl

@[simp] lemma sumSq_cons (x : K) (xs : List K) : sumSq (x :: xs) = x ^ 2 + sumSq xs := by
  rw [sumSq, List.map_cons, List.sum_cons, sumSq]

@[simp] lemma sumSq_append (xs ys : List K) : sumSq (xs ++ ys) = sumSq xs + sumSq ys := by
  rw [sumSq, List.map_append, List.sum_append, sumSq, sumSq]

/-- To the square of the sum, each figure brings in twice its product with the others. -/
lemma sq_sum_cons (x : K) (xs : List K) :
    (x :: xs).sum ^ 2 = x ^ 2 + (2 * (x * xs.sum) + xs.sum ^ 2) := by
  rw [List.sum_cons]
  ring

/-- The squares of differences, multiplied out. -/
lemma sumSq_map_sub (xs : List K) (c : K) :
    sumSq (xs.map (· - c)) = sumSq xs - 2 * c * xs.sum + xs.length * c ^ 2 := by
  induction xs with
  | nil => simp
  | cons x xs ih =>
    rw [List.map_cons, sumSq_cons, ih, sumSq_cons, List.sum_cons, List.length_cons,
      Nat.cast_succ]
    ring

/-- The square of the sum, over the number of the figures, is what the squared deviations leave
of the sum of the squares. -/
lemma sumSq_deviations [CharZero K] (xs : List K) :
    sumSq (deviations xs) = sumSq xs - xs.sum ^ 2 / xs.length := by
  by_cases hnil : xs = []
  · simp [hnil, deviations]
  have hlength : (xs.length : K) ≠ 0 := by simpa using hnil
  rw [deviations, sumSq_map_sub, meanOf]
  field_simp
  ring

section Ordered

variable [LinearOrder K] [IsStrictOrderedRing K] {xs : List K}

/-! ## Squares that vanish -/

lemma sumSq_nonneg (xs : List K) : 0 ≤ sumSq xs := by
  induction xs with
  | nil => exact le_rfl
  | cons x xs ih =>
    rw [sumSq_cons]
    exact add_nonneg (sq_nonneg x) ih

lemma sumSq_eq_zero_iff : sumSq xs = 0 ↔ ∀ x ∈ xs, x = 0 := by
  induction xs with
  | nil => simp
  | cons x xs ih =>
    rw [sumSq_cons, add_eq_zero_iff_of_nonneg (sq_nonneg x) (sumSq_nonneg xs), ih,
      sq_eq_zero_iff, List.forall_mem_cons]

/-- Equal figures have this figure as their mean. -/
lemma meanOf_eq {c : K} (hne : xs ≠ []) (h : ∀ x ∈ xs, x = c) : meanOf xs = c := by
  have hlength : (xs.length : K) ≠ 0 := by simpa using hne
  have hsum : xs.sum = xs.length * c := by
    rw [← nsmul_eq_mul]
    exact List.sum_eq_card_nsmul xs c h
  rw [meanOf, hsum, mul_div_cancel_left₀ _ hlength]

/-- Figures that do not deviate from their mean are equal. -/
lemma sumSq_deviations_eq_zero_iff :
    sumSq (deviations xs) = 0 ↔ ∀ x ∈ xs, ∀ y ∈ xs, x = y := by
  rw [sumSq_eq_zero_iff, deviations, List.forall_mem_map]
  simp only [sub_eq_zero]
  constructor
  · intro hmean x hx y hy
    rw [hmean x hx, hmean y hy]
  · intro hequal x hx
    exact (meanOf_eq (List.ne_nil_of_mem hx) fun y hy => hequal y hy x hx).symm

/-! ## The square of the sum -/

theorem sq_sum_div_length_le (xs : List K) : xs.sum ^ 2 / xs.length ≤ sumSq xs := by
  have hdeviations := sumSq_nonneg (deviations xs)
  rw [sumSq_deviations] at hdeviations
  exact sub_nonneg.mp hdeviations

theorem sq_sum_div_length_eq_iff (xs : List K) :
    xs.sum ^ 2 / xs.length = sumSq xs ↔ ∀ x ∈ xs, ∀ y ∈ xs, x = y := by
  rw [← sumSq_deviations_eq_zero_iff, sumSq_deviations, sub_eq_zero, eq_comm]

/-! ## Figures that are not negative -/

lemma sum_eq_zero_iff_of_nonneg (h : ∀ x ∈ xs, 0 ≤ x) : xs.sum = 0 ↔ ∀ x ∈ xs, x = 0 :=
  ⟨fun hsum _ hx => List.all_zero_of_le_zero_le_of_sum_eq_zero h hsum hx, List.sum_eq_zero⟩

omit [IsStrictOrderedRing K] in
/-- Figures that do not add up to zero are not all zero. -/
lemma countP_ne_zero_pos (h : xs.sum ≠ 0) : 0 < xs.countP (· ≠ 0) := by
  by_contra hnone
  have hzero : ∀ x ∈ xs, x = 0 := by simpa [List.countP_eq_zero] using hnone
  exact h (List.sum_eq_zero hzero)

theorem sumSq_le_sq_sum (h : ∀ x ∈ xs, 0 ≤ x) : sumSq xs ≤ xs.sum ^ 2 := by
  induction xs with
  | nil => simp
  | cons x xs ih =>
    obtain ⟨hx, hxs⟩ := List.forall_mem_cons.mp h
    have hproduct : 0 ≤ x * xs.sum := mul_nonneg hx (List.sum_nonneg hxs)
    rw [sumSq_cons, sq_sum_cons]
    linarith [ih hxs]

theorem sumSq_eq_sq_sum_iff (h : ∀ x ∈ xs, 0 ≤ x) :
    sumSq xs = xs.sum ^ 2 ↔ xs.countP (· ≠ 0) ≤ 1 := by
  induction xs with
  | nil => simp
  | cons x xs ih =>
    obtain ⟨hx, hxs⟩ := List.forall_mem_cons.mp h
    have hproduct : 0 ≤ x * xs.sum := mul_nonneg hx (List.sum_nonneg hxs)
    have hle := sumSq_le_sq_sum hxs
    rcases eq_or_ne x 0 with rfl | hne
    · simpa using ih hxs
    have hzero : xs.countP (· ≠ 0) = 0 ↔ xs.sum = 0 := by
      rw [sum_eq_zero_iff_of_nonneg hxs, List.countP_eq_zero]
      simp
    rw [List.countP_cons_of_pos (by simpa using hne), Nat.succ_le_succ_iff, Nat.le_zero, hzero,
      sumSq_cons, sq_sum_cons, add_right_inj]
    constructor
    · intro heq
      -- the product that the square of the sum has in addition must vanish
      have hvanish : x * xs.sum = 0 := by linarith
      exact (mul_eq_zero.mp hvanish).resolve_left hne
    · intro hsum
      have hnone := (sum_eq_zero_iff_of_nonneg hxs).mp hsum
      rw [sumSq_eq_zero_iff.mpr hnone, hsum]
      ring

end Ordered

end RevenueDesk.Ledger
