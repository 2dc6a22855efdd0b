/-
# Figures read exactly

The ledger counts in any type of figures.  Here it counts in an ordered field: additions
lose nothing, every figure can be used, and of two figures the larger one is ranked first.
In this reading the two kinds of sum are the sum of the list, and the measures are what
their names say.

Rows whose figures are of another type, such as doubles, are read by saying which number a
figure is; a figure that cannot be used is left out (`Row.reading`).
-/
import Mathlib.Algebra.BigOperators.Group.List.Basic
import Mathlib.Algebra.Order.Field.Rat
import RevenueDesk.Ledger.Measure

namespace RevenueDesk

/-- The number that a finite double stands for. -/
def Binary64.value {K : Type} [Field K] (x : Binary64) : K :=
  (if x.negative then -1 else 1) * x.significand * 2 ^ x.scale

open Classical in
/-- Exact arithmetic.  The square root is that of the field, where it has one. -/
noncomputable instance (priority := low) Amount.exact {K : Type} [Field K] [LinearOrder K] :
    Amount K where
  ofNat n := (n : K)
  negZero := 0
  sqrt x := if h : ∃ y : K, 0 ≤ y ∧ y * y = x then h.choose else 0
  isFinite _ := true
  le a b := decide (a ≤ b)
  rank a b := compare a b

section Exact

variable {K : Type} [Field K] [LinearOrder K]

namespace Amount

lemma ofNat_eq (n : ℕ) : (ofNat n : K) = (n : K) := rfl

@[simp] lemma zero_eq : (zero : K) = 0 := Nat.cast_zero

@[simp] lemma hundred_eq : (hundred : K) = 100 := Nat.cast_ofNat

@[simp] lemma isFinite_eq (x : K) : isFinite x = true := rfl

@[simp] lemma le_iff {x y : K} : le x y = true ↔ x ≤ y := decide_eq_true_iff

@[simp] lemma lt_iff {x y : K} : lt x y = true ↔ x < y := by
  unfold lt
  rw [Bool.and_eq_true, Bool.not_eq_true', ← Bool.not_eq_true, le_iff, le_iff, not_le]
  exact and_iff_right_of_imp le_of_lt

lemma same_iff {x y : K} : same x y = true ↔ x = y := by
  unfold same
  rw [Bool.and_eq_true, le_iff, le_iff]
  exact le_antisymm_iff.symm

/-- Both kinds of sum are the sum. -/
@[simp] lemma total_eq_sum (xs : List K) : total xs = xs.sum := by
  rw [total, zero_eq, List.sum_eq_foldl]

@[simp] lemma sum_eq_sum (xs : List K) : sum xs = xs.sum := by
  rw [List.sum_eq_foldl]
  rfl

end Amount

namespace Ledger

lemma totalOf_eq (groups : List (Group K)) : totalOf groups = (groups.map Group.revenue).sum :=
  Amount.total_eq_sum _

lemma sharePct_of_pos {part whole : K} (h : 0 < whole) :
    sharePct part whole = part / whole * 100 := by
  rw [sharePct, if_pos (by simpa using h), Amount.hundred_eq]

lemma sharePct_of_nonpos {part whole : K} (h : whole ≤ 0) : sharePct part whole = 0 := by
  rw [sharePct, if_neg (by simpa using h), Amount.zero_eq]

@[simp] lemma sharable_iff {whole : K} : sharable whole = true ↔ 0 < whole := by
  unfold sharable
  rw [Amount.isFinite_eq, Bool.and_true, Bool.not_eq_true', ← Bool.not_eq_true, Amount.le_iff,
    Amount.zero_eq, not_le]

/-- The order of rankings: larger revenue first, and the key decides between equal ones. -/
lemma rankedBefore_iff {a b : String × K} :
    rankedBefore a b = true ↔ b.2 < a.2 ∨ a.2 = b.2 ∧ a.1 ≤ b.1 := by
  have hrank : Amount.rank b.2 a.2 = compare b.2 a.2 := rfl
  unfold rankedBefore
  rw [hrank]
  rcases lt_trichotomy b.2 a.2 with h | h | h
  · simp [compare_lt_iff_lt.mpr h, h]
  · simp [h]
  · simp [compare_gt_iff_gt.mpr h, h.not_gt, h.ne]

end Ledger

/-! ## Rows of other figures -/

variable {α : Type} [Amount α]

/-- The number that a row counts for, if `value` says which number a figure is: zero if the
figure is missing or cannot be used. -/
def Row.worth (value : α → K) (row : Row α) : K :=
  match row.revenue with
  | some v => if Amount.isFinite v then value v else 0
  | none => 0

/-- A row with its figure read as a number. -/
def Row.reading (value : α → K) (row : Row α) : Row K :=
  ⟨row.customer, row.designation, row.skill, row.manager, row.month,
    (row.revenue.filter Amount.isFinite).map value⟩

/-- A snapshot with its figures read as numbers. -/
def Snapshot.reading (value : α → K) (s : Snapshot α) : Snapshot K :=
  ⟨s.rows.map (Row.reading value), s.degraded⟩

/-- The program itself leaves out the same figures. -/
@[simp] lemma Row.amount_reading (value : α → K) (row : Row α) :
    (row.reading value).amount = row.worth value := by
  unfold Row.amount Row.worth Row.reading
  cases row.revenue with
  | none => exact Amount.zero_eq
  | some v =>
    by_cases hv : Amount.isFinite v = true
    · simp [Option.filter, hv]
    · simp [Option.filter, hv]

end Exact

/-- A sheet with holes: there are fields that are missing, blank or full of commas, a row without
a month, and one whose figure is not a number. -/
def raggedSheet : Snapshot Binary64 where
  rows :=
    [⟨some "Salesforce", some "Engineer", some "Scala, DevOps", some "Ana",
        some ⟨⟨2025, 1⟩, 14⟩, some ⟨0x4059000000000000⟩⟩,
      ⟨some "  ", none, some "Scala, ,Scala,", some "Bruno",
        some ⟨⟨2025, 1⟩, 31⟩, some ⟨0x4072C00000000000⟩⟩,
      ⟨some "Salesforce", some "Architect", none, none, none, some Binary64.nan⟩,
      ⟨none, some "Engineer", some "DevOps", some "Ana",
        some ⟨⟨2024, 12⟩, 1⟩, some ⟨0xC049000000000000⟩⟩]
  degraded := false

/-! ## Rational numbers -/

section Rational

variable {α : Type} [Amount α]

/-- What rows are worth together. -/
def worthOf (value : α → ℚ) (rows : List (Row α)) : ℚ := (rows.map (Row.worth value)).sum

lemma sum_amount_reading (value : α → ℚ) (rows : List (Row α)) :
    ((rows.map (Row.reading value)).map Row.amount).sum = worthOf value rows := by
  rw [List.map_map, worthOf]
  congr 2
  funext row
  exact Row.amount_reading value row

/-- Reading the figures does not touch what rows are selected by. -/
lemma sum_amount_filter_reading (value : α → ℚ) (rows : List (Row α)) (p : Row ℚ → Bool) :
    (((rows.map (Row.reading value)).filter p).map Row.amount).sum =
      worthOf value (rows.filter fun row => p (row.reading value)) := by
  rw [List.filter_map]
  exact sum_amount_reading value _

end Rational

end RevenueDesk
