/-
# Collapsing the end of a ranking

The end of a ranking is merged into one group, and the list that comes of it may be sorted
again, or cut further ahead.  Read exactly, this never depends on the way there:

* `topWithOthers_topWithOthers`: of two cuts the shorter one decides;
* `totalOf_apply`, `countOf_apply`: neither a cut nor a sort changes the revenue of all groups or
  the number of their rows, so no sequence of them does (`RankingStep.run_eq`).
-/
import RevenueDesk.Proofs.Ledger.Grouping

namespace RevenueDesk.Ledger

/-- What is done to a list of groups. -/
inductive RankingStep where
  /-- Everything after the first `n` groups is merged. -/
  | cut (n : ℕ)
  /-- The groups are ranked again. -/
  | sort
deriving DecidableEq, Repr

namespace RankingStep

variable {α : Type} [Amount α]

/-- The groups after a step. -/
def apply (groups : List (Group α)) : RankingStep → List (Group α)
  | cut n => topWithOthers n groups
  | sort => ranked groups

/-- The groups after some steps, from the first to the last. -/
def run (groups : List (Group α)) (steps : List RankingStep) : List (Group α) :=
  steps.foldl apply groups

end RankingStep

variable {K : Type} [Field K] [LinearOrder K]

/-! ## One cut after the other -/

lemma take_topWithOthers {α : Type} [Amount α] {n : ℕ} {groups : List (Group α)} {k : ℕ}
    (hk : k ≤ n) : (topWithOthers n groups).take k = groups.take k := by
  unfold topWithOthers
  split
  · rfl
  · rename_i hn
    have hlength : k ≤ (groups.take n).length := by
      rw [List.length_take]
      omega
    rw [List.take_append_of_le_length hlength, List.take_take, min_eq_left hk]

lemma head?_topWithOthers {α : Type} [Amount α] {n : ℕ} {groups : List (Group α)} (hn : 0 < n) :
    (topWithOthers n groups).head? = groups.head? := by
  have hone := congrArg List.head? (take_topWithOthers hn : _ = groups.take 1)
  simpa only [List.head?_take, Nat.succ_ne_zero, if_false] using hone

/-- A group that stands for others counts for all of them. -/
lemma merged_append_merged (gs hs : List (Group K)) :
    merged (gs ++ [merged hs]) = merged (gs ++ hs) := by
  simp [merged, countOf_eq_sum]

/-- Of two cuts the shorter one decides. -/
theorem topWithOthers_topWithOthers (m n : ℕ) (groups : List (Group K)) :
    topWithOthers n (topWithOthers m groups) = topWithOthers (min m n) groups := by
  by_cases hm : groups.length ≤ m
  · -- the first cut leaves the list as it is
    have hfirst : topWithOthers m groups = groups := if_pos hm
    rcases le_total n m with hnm | hmn
    · rw [hfirst, min_eq_right hnm]
    · have hsecond : topWithOthers n groups = groups := if_pos (hm.trans hmn)
      rw [hfirst, min_eq_left hmn, hfirst, hsecond]
  · have hlength : (topWithOthers m groups).length = m + 1 := by
      rw [length_topWithOthers, if_neg hm]
    rcases Nat.lt_or_ge m n with hmn | hnm
    · -- the second one does
      rw [min_eq_left hmn.le]
      exact if_pos (hlength.trans_le hmn)
    · have hfirst : topWithOthers m groups = groups.take m ++ [merged (groups.drop m)] := if_neg hm
      have hbefore : n ≤ (groups.take m).length := by
        rw [List.length_take]
        omega
      have hdrop : (groups.take m).drop n ++ groups.drop m = groups.drop n := by
        rw [← List.drop_append_of_le_length hbefore, List.take_append_drop]
      rw [min_eq_right hnm, topWithOthers, if_neg (by omega), take_topWithOthers hnm, hfirst,
        List.drop_append_of_le_length hbefore, merged_append_merged, hdrop, topWithOthers,
        if_neg (by omega)]

/-! ## Any number of steps -/

lemma totalOf_apply (groups : List (Group K)) (step : RankingStep) :
    totalOf (step.apply groups) = totalOf groups := by
  cases step with
  | cut n => exact totalOf_topWithOthers n groups
  | sort =>
    rw [totalOf_eq, totalOf_eq]
    exact ((rankBy_perm _ groups).map Group.revenue).sum_eq

lemma countOf_apply {α : Type} [Amount α] (groups : List (Group α)) (step : RankingStep) :
    countOf (step.apply groups) = countOf groups := by
  rw [countOf_eq_sum, countOf_eq_sum]
  cases step with
  | cut n => exact sum_count_topWithOthers n groups
  | sort => exact ((rankBy_perm _ groups).map Group.count).sum_eq

/-- What no step changes, no sequence of steps changes. -/
theorem RankingStep.run_eq {α β : Type} [Amount α] {figure : List (Group α) → β}
    (h : ∀ groups step, figure (RankingStep.apply groups step) = figure groups)
    (groups : List (Group α)) (steps : List RankingStep) :
    figure (RankingStep.run groups steps) = figure groups := by
  induction steps generalizing groups with
  | nil => rfl
  | cons step steps ih => exact (ih (step.apply groups)).trans (h groups step)

/-! ## The groups of rows -/

/-- What cuts and sorts do to groups, with figures read as exact numbers. -/
structure TailCollapse {α : Type} [Amount α] (value : α → K) : Prop where
  /-- Of two cuts the shorter one decides. -/
  again : ∀ (groups : List (Group K)) m n,
    topWithOthers n (topWithOthers m groups) = topWithOthers (min m n) groups
  /-- At most one group comes after the first `n`. -/
  length : ∀ (groups : List (Group K)) n,
    (topWithOthers n groups).length = min groups.length (n + 1)
  /-- The first `n` stay as they are. -/
  head : ∀ (groups : List (Group K)) n,
    (topWithOthers n groups).take (min groups.length n) = groups.take (min groups.length n)
  /-- The groups of rows tell the revenue of the rows after any steps. -/
  revenue : ∀ (rows : List (Row α)) field steps,
    totalOf (RankingStep.run (groupBy (rows.map (Row.reading value)) field) steps) =
      (rows.map (Row.worth value)).sum
  /-- They tell their number. -/
  count : ∀ (rows : List (Row α)) field steps,
    countOf (RankingStep.run (groupBy (rows.map (Row.reading value)) field) steps) = rows.length

/-- Cutting a ranking short loses nothing, however often and in whatever order it is done. -/
theorem tailCollapse {α : Type} [Amount α] (value : α → K) : TailCollapse value where
  again groups m n := topWithOthers_topWithOthers m n groups
  length groups n := by
    rw [length_topWithOthers]
    split <;> omega
  head groups n := take_topWithOthers (min_le_right _ _)
  revenue rows field steps := by
    rw [RankingStep.run_eq totalOf_apply, totalOf_eq, sum_revenue_groupBy, List.map_map]
    simp only [Function.comp_def, Row.amount_reading]
  count rows field steps := by
    rw [RankingStep.run_eq countOf_apply, countOf_eq_sum, sum_count_groupBy, List.length_map]

end RevenueDesk.Ledger
