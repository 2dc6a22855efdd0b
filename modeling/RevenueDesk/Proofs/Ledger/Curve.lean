/-
# The Pareto curve

The curve of a list of groups has a point for each of them, with the revenue up to there and
its share of the total (`getElem?_paretoFrom`).  The last point adds up the same figures in the
same order as the total itself, so it is the total, and its share is one hundred percent, with
no rounding in between.

The figures may be of any type in which shares can be taken (`Amount.Shares`), as they can of
doubles and of exact numbers.  The exact curve of revenues that are not negative ascends from
zero to one hundred (`paretoCurve`).
-/
import Mathlib.Algebra.Order.BigOperators.Group.List
import Mathlib.Algebra.Order.Field.Rat
import Mathlib.Tactic.GCongr
import Mathlib.Tactic.Positivity
import RevenueDesk.Proofs.Ledger.Exact
import RevenueDesk.Proofs.Number.Quotient

namespace RevenueDesk

open Amount

/-! ## Figures that shares can be taken of -/

/-- A figure that can be used is positive or not, and a positive one is one hundred percent of
itself. -/
class Amount.Shares (α : Type) [Amount α] : Prop where
  le_total_zero : ∀ {x : α}, isFinite x = true → le zero x = true ∨ le x zero = true
  whole : ∀ {x : α}, Ledger.sharable x = true → x / x * hundred = hundred

section Places

variable {x : Binary64} (hfinite : x.isFinite = true)
include hfinite

lemma zero_le_iff_place : le zero x = true ↔ 0 ≤ x.place := by
  change (!(zero : Binary64).isNaN && !x.isNaN && (zero : Binary64).place ≤ x.place) = true ↔ _
  have hzero : (zero : Binary64).isNaN = false ∧ (zero : Binary64).place = 0 := by decide
  simp [hzero, Binary64.isNaN_of_isFinite hfinite]

lemma le_zero_iff_place : le x zero = true ↔ x.place ≤ 0 := by
  change (!x.isNaN && !(zero : Binary64).isNaN && x.place ≤ (zero : Binary64).place) = true ↔ _
  have hzero : (zero : Binary64).isNaN = false ∧ (zero : Binary64).place = 0 := by decide
  simp [hzero, Binary64.isNaN_of_isFinite hfinite]

end Places

instance : Amount.Shares Binary64 where
  le_total_zero {x} hfinite := by
    rw [zero_le_iff_place hfinite, le_zero_iff_place hfinite]
    exact le_total _ _
  whole {x} hwhole := by
    obtain ⟨hpos, hfinite⟩ := Bool.and_eq_true_iff.mp hwhole
    have hne : x.magnitudeBits ≠ 0 := by
      intro hmagnitude
      have hle : le x zero = true := by
        rw [le_zero_iff_place hfinite]
        simp [Binary64.place, hmagnitude]
      simp [hle] at hpos
    rw [Binary64.div_self hfinite hne]
    decide

instance {K : Type} [Field K] [LinearOrder K] : Amount.Shares K where
  le_total_zero {x} _ := by
    rw [le_iff, le_iff]
    exact le_total _ _
  whole {x} hwhole := by
    have hpos := Ledger.sharable_iff.mp hwhole
    rw [div_self hpos.ne', one_mul]

namespace Ledger

/-! ## The points of a curve -/

section Points

variable {α : Type} [Amount α] {groups : List (Group α)}

/-- A point has the running total up to its group. -/
lemma getElem?_paretoFrom (whole before : α) (groups : List (Group α)) (i : ℕ) :
    (paretoFrom whole before groups)[i]? = groups[i]?.map fun g =>
      ⟨g.key, g.revenue, ((groups.take (i + 1)).map Group.revenue).foldl (· + ·) before,
        ((groups.take (i + 1)).map Group.revenue).foldl (· + ·) before / whole * hundred⟩ := by
  induction groups generalizing before i with
  | nil => rfl
  | cons g gs ih =>
    cases i with
    | zero => rfl
    | succ i =>
      rw [paretoFrom, List.getElem?_cons_succ, List.getElem?_cons_succ, ih]
      rfl

lemma length_paretoFrom (whole before : α) (groups : List (Group α)) :
    (paretoFrom whole before groups).length = groups.length := by
  induction groups generalizing before with
  | nil => rfl
  | cons g gs ih => exact congrArg (· + 1) (ih _)

variable (groups) in
/-- The curve of groups, point by point.  There is none unless shares can be taken of their
total. -/
structure TracesCurve : Prop where
  /-- It is missing if there are no groups, or if their total is not finite and positive. -/
  eq_nil_iff : pareto groups = [] ↔
    groups = [] ∨ ¬ (isFinite (totalOf groups) = true ∧ lt zero (totalOf groups) = true)
  /-- It has a point for each group, in the same order. -/
  points : pareto groups ≠ [] →
    (pareto groups).map (fun p => (p.key, p.revenue)) = groups.map fun g => (g.key, g.revenue)
  /-- A point counts the groups up to its own, from the first one on. -/
  cumulative : ∀ i p, (pareto groups)[i]? = some p →
    p.cumulative = total ((groups.take (i + 1)).map Group.revenue)
  /-- It shows this in percent of the total. -/
  percent : ∀ p ∈ pareto groups, p.cumulativePct = p.cumulative / totalOf groups * hundred
  /-- The last point is the very total, and one hundred percent. -/
  last : ∀ p, (pareto groups).getLast? = some p →
    p.cumulative = totalOf groups ∧ p.cumulativePct = hundred

lemma sharable_of_pareto_ne_nil (h : pareto groups ≠ []) : sharable (totalOf groups) = true := by
  by_contra hwhole
  exact h (if_neg hwhole)

lemma pareto_of_sharable (h : sharable (totalOf groups) = true) :
    pareto groups = paretoFrom (totalOf groups) zero groups :=
  if_pos h

variable [Shares α]

lemma sharable_iff_pos {whole : α} :
    sharable whole = true ↔ isFinite whole = true ∧ lt zero whole = true := by
  unfold sharable lt
  rw [Bool.and_eq_true, Bool.and_eq_true, and_comm]
  refine and_congr_right fun hfinite => ?_
  constructor
  · intro hpos
    rcases Shares.le_total_zero hfinite with hle | hle
    · exact ⟨hle, hpos⟩
    · simp [hle] at hpos
  · exact And.right

/-- Groups have the curve that their running totals trace. -/
theorem traces_pareto (groups : List (Group α)) : TracesCurve groups where
  eq_nil_iff := by
    rw [← sharable_iff_pos]
    by_cases hwhole : sharable (totalOf groups) = true
    · rw [pareto_of_sharable hwhole, ← List.length_eq_zero_iff, length_paretoFrom,
        List.length_eq_zero_iff, or_iff_left (not_not.mpr hwhole)]
    · exact iff_of_true (if_neg hwhole) (Or.inr hwhole)
  points h := by
    rw [pareto_of_sharable (sharable_of_pareto_ne_nil h)]
    refine List.ext_getElem? fun i => ?_
    rw [List.getElem?_map, List.getElem?_map, getElem?_paretoFrom, Option.map_map]
    rfl
  cumulative i p hp := by
    have hne : pareto groups ≠ [] := List.ne_nil_of_mem (List.mem_of_getElem? hp)
    rw [pareto_of_sharable (sharable_of_pareto_ne_nil hne), getElem?_paretoFrom] at hp
    obtain ⟨g, -, rfl⟩ := Option.map_eq_some_iff.mp hp
    rfl
  percent p hp := by
    rw [pareto_of_sharable (sharable_of_pareto_ne_nil (List.ne_nil_of_mem hp))] at hp
    obtain ⟨i, hi⟩ := List.mem_iff_getElem?.mp hp
    rw [getElem?_paretoFrom] at hi
    obtain ⟨g, -, rfl⟩ := Option.map_eq_some_iff.mp hi
    rfl
  last p hp := by
    have hwhole := sharable_of_pareto_ne_nil (List.ne_nil_of_mem (List.mem_of_getLast? hp))
    rw [pareto_of_sharable hwhole, List.getLast?_eq_getElem?, length_paretoFrom,
      getElem?_paretoFrom] at hp
    obtain ⟨g, hg, rfl⟩ := Option.map_eq_some_iff.mp hp
    -- the last point adds up what the total adds up
    have hall : groups.take (groups.length - 1 + 1) = groups := by
      have hlt := (List.getElem?_eq_some_iff.mp hg).1
      exact List.take_of_length_le (by omega)
    rw [hall]
    exact ⟨rfl, Shares.whole hwhole⟩

end Points

/-! ## The exact curve -/

section Ordered

variable {K : Type} [Field K] [LinearOrder K] [IsStrictOrderedRing K] {groups : List (Group K)}

/-- The points lie between what comes before them and what all groups make up. -/
lemma cumulative_of_mem_paretoFrom (h : ∀ g ∈ groups, 0 ≤ g.revenue) {whole before : K}
    {p : ParetoPoint K} (hp : p ∈ paretoFrom whole before groups) :
    before ≤ p.cumulative ∧ p.cumulative ≤ before + (groups.map Group.revenue).sum := by
  induction groups generalizing before with
  | nil => simp [paretoFrom] at hp
  | cons g gs ih =>
    obtain ⟨hg, hgs⟩ := List.forall_mem_cons.mp h
    have hrest : 0 ≤ (gs.map Group.revenue).sum := List.sum_nonneg (by simpa using hgs)
    rw [List.map_cons, List.sum_cons, ← add_assoc]
    rcases List.mem_cons.mp hp with rfl | hp
    · exact ⟨le_add_of_nonneg_right hg, le_add_of_nonneg_right hrest⟩
    · obtain ⟨hlow, hhigh⟩ := ih hgs hp
      exact ⟨(le_add_of_nonneg_right hg).trans hlow, hhigh⟩

/-- They ascend. -/
lemma pairwise_paretoFrom (h : ∀ g ∈ groups, 0 ≤ g.revenue) (whole before : K) :
    (paretoFrom whole before groups).Pairwise fun p q => p.cumulative ≤ q.cumulative := by
  induction groups generalizing before with
  | nil => exact List.Pairwise.nil
  | cons g gs ih =>
    have hgs := (List.forall_mem_cons.mp h).2
    exact List.Pairwise.cons (fun q hq => (cumulative_of_mem_paretoFrom hgs hq).1) (ih hgs _)

variable (groups) in
/-- The curve goes up, from zero at least to one hundred at most. -/
structure Ascends : Prop where
  range : ∀ p ∈ pareto groups, 0 ≤ p.cumulativePct ∧ p.cumulativePct ≤ 100
  ascending : (pareto groups).Pairwise fun p q => p.cumulativePct ≤ q.cumulativePct

theorem ascends_pareto (h : ∀ g ∈ groups, 0 ≤ g.revenue) : Ascends groups := by
  by_cases hnil : pareto groups = []
  · constructor <;> simp [hnil]
  have hwhole := sharable_of_pareto_ne_nil hnil
  have hpos := sharable_iff.mp hwhole
  have hpercent := (traces_pareto groups).percent
  simp only [hundred_eq] at hpercent
  constructor
  · intro p hp
    rw [hpercent p hp]
    rw [pareto_of_sharable hwhole] at hp
    obtain ⟨hlow, hhigh⟩ := cumulative_of_mem_paretoFrom h hp
    rw [zero_eq] at hlow
    rw [zero_eq, zero_add, ← totalOf_eq] at hhigh
    constructor
    · positivity
    · calc p.cumulative / totalOf groups * 100
          ≤ totalOf groups / totalOf groups * 100 := by gcongr
        _ = 100 := by rw [div_self hpos.ne', one_mul]
  · refine List.Pairwise.imp_of_mem (S := fun p q => p.cumulativePct ≤ q.cumulativePct)
      (fun {p q} hp hq hle => ?_) (pareto_of_sharable hwhole ▸ pairwise_paretoFrom h _ _)
    rw [hpercent p hp, hpercent q hq]
    gcongr

end Ordered

/-- What the Pareto curve is: of doubles as they are, and of exact numbers. -/
structure ParetoCurve : Prop where
  doubles : ∀ groups : List (Group Binary64), TracesCurve groups
  exact : ∀ groups : List (Group ℚ), TracesCurve groups
  /-- Where no revenue is negative, the exact curve never goes down. -/
  ascends : ∀ groups : List (Group ℚ), (∀ g ∈ groups, 0 ≤ g.revenue) → Ascends groups

/-- The Pareto curve adds up to the total and ends at one hundred percent. -/
theorem paretoCurve : ParetoCurve where
  doubles := traces_pareto
  exact := traces_pareto
  ascends _ := ascends_pareto

end Ledger

end RevenueDesk
