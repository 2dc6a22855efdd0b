/-
# Quarters, months and their rows

A breakdown by quarter has a part for rows without a date, so it holds all rows:

* `sum_revenue_quarterlyBy`: the revenues of the groups add up to the rows;
* `sum_undated_quarterlyBy`: their parts without a date add up to the rows without one.

The months have no such part.  What they hold is the rows with a date, and the rows without
one are missing (`sum_monthlyTotals`).
-/
import Mathlib.Tactic.Ring
import RevenueDesk.Ledger.Breakdown
import RevenueDesk.Ledger.Period
import RevenueDesk.Proofs.Ledger.Grouping

namespace RevenueDesk

variable {α : Type} [Amount α] {K : Type} [Field K] [LinearOrder K]

/-- The revenue that a row has without a date. -/
def Row.undated (row : Row α) : α := if row.month.isNone then row.amount else Amount.zero

/-- Together these are the amounts of the rows that have no date. -/
lemma Row.sum_undated (rows : List (Row K)) :
    (rows.map Row.undated).sum =
      ((rows.filter fun row => row.month.isNone).map Row.amount).sum := by
  induction rows with
  | nil => rfl
  | cons row rows ih =>
    rw [List.map_cons, List.sum_cons, ih, Row.undated, Amount.zero_eq, List.filter_cons]
    by_cases h : row.month.isNone = true
    · rw [if_pos h, if_pos h, List.map_cons, List.sum_cons]
    · rw [if_neg h, if_neg h, zero_add]

namespace Breakdown

/-! ## Breakdowns -/

@[simp] lemma total_zero : (zero : Breakdown K).total = 0 := by
  simp [total, zero]

@[simp] lemma undated_zero : (zero : Breakdown K).undated = 0 := Amount.zero_eq

/-- An amount that is added counts in the total whatever its quarter is. -/
lemma total_add (b : Breakdown K) (quarter : Option Quarter) (amount : K) :
    (b.add quarter amount).total = b.total + amount := by
  rcases quarter with _ | _ | _ | _ | _ <;> simp only [add, total] <;> ring

lemma undated_add (b : Breakdown K) (quarter : Option Quarter) (amount : K) :
    (b.add quarter amount).undated = b.undated + if quarter.isNone then amount else 0 := by
  rcases quarter with _ | _ | _ | _ | _ <;> simp [add]

lemma total_merge (a b : Breakdown K) : (a.merge b).total = a.total + b.total := by
  simp only [merge, total]
  ring

lemma merge_right_comm (a b c : Breakdown K) : (a.merge b).merge c = (a.merge c).merge b := by
  simp only [merge, add_right_comm]

/-- Adding an amount is merging a breakdown that holds it alone. -/
lemma add_eq_merge (b : Breakdown K) (quarter : Option Quarter) (amount : K) :
    b.add quarter amount = b.merge (zero.add quarter amount) := by
  rcases quarter with _ | _ | _ | _ | _ <;> simp [add, merge, zero]

/-- A figure that goes along with a breakdown: there is nothing at the beginning, an amount brings
in what `gain` says, and a merged breakdown what it has itself. -/
structure Adds (figure : Breakdown K → K) (gain : Option Quarter → K → K) : Prop where
  zero : figure zero = 0
  add : ∀ b quarter amount, figure (b.add quarter amount) = figure b + gain quarter amount
  merge : ∀ a b, figure (a.merge b) = figure a + figure b

lemma adds_total : Adds (total : Breakdown K → K) fun _ amount => amount :=
  ⟨total_zero, total_add, total_merge⟩

lemma adds_undated : Adds (undated : Breakdown K → K) fun quarter amount =>
    if quarter.isNone then amount else 0 :=
  ⟨undated_zero, undated_add, fun _ _ => rfl⟩

lemma Adds.foldl_merge {figure : Breakdown K → K} {gain : Option Quarter → K → K}
    (h : Adds figure gain) (bs : List (Breakdown K)) (b : Breakdown K) :
    figure (bs.foldl Breakdown.merge b) = figure b + (bs.map figure).sum := by
  induction bs generalizing b with
  | nil => simp
  | cons b' bs ih => rw [List.foldl_cons, ih, h.merge, List.map_cons, List.sum_cons, add_assoc]

end Breakdown

namespace Ledger

/-! ## Groups with their breakdowns -/

/-- What a row leaves under its key. -/
def enterQuarter (row : Row α) (held : Option (Breakdown α)) : Breakdown α :=
  (held.getD .zero).add (row.month?.map Month.quarter) row.amount

lemma foldl_bookQuarter (field : Row α → Option String) (rows : List (Row α)) :
    rows.foldl (bookQuarter field) [] =
      Keyed.collect (fun row => keyOf (field row)) enterQuarter rows := rfl

/-- A row brings in what its amount does. -/
lemma addsShare_of_adds {figure : Breakdown K → K} {gain : Option Quarter → K → K}
    (h : Breakdown.Adds figure gain) :
    Keyed.AddsShare enterQuarter figure fun row =>
      gain (row.month?.map Month.quarter) row.amount := by
  intro row held
  rw [enterQuarter, h.add]
  cases held with
  | none => simp [Keyed.measured, h.zero]
  | some b => rfl

lemma addsShare_total : Keyed.AddsShare (enterQuarter : Row K → _) Breakdown.total Row.amount :=
  addsShare_of_adds Breakdown.adds_total

/-- The groups come from the rows collected under their keys, each with the total of its
breakdown as its revenue. -/
lemma quarterlyBy_perm (rows : List (Row K)) (field : Row K → Option String) :
    (quarterlyBy rows field).Perm
      ((Keyed.collect (fun row => keyOf (field row)) enterQuarter rows).map fun e =>
        ⟨e.1, e.2, e.2.total⟩) :=
  rankBy_perm _ _

/-- The revenues of the groups add up to the rows. -/
theorem sum_revenue_quarterlyBy (rows : List (Row K)) (field : Row K → Option String) :
    ((quarterlyBy rows field).map QuarterlyGroup.revenue).sum = (rows.map Row.amount).sum := by
  rw [((quarterlyBy_perm rows field).map QuarterlyGroup.revenue).sum_eq, List.map_map]
  exact Keyed.sum_measure_collect addsShare_total rows

/-- A share of the breakdowns is what the rows add to it. -/
lemma sum_share_quarterlyBy {share : Breakdown K → K} {own : Row K → K}
    (h : Keyed.AddsShare enterQuarter share own) (rows : List (Row K))
    (field : Row K → Option String) :
    (((quarterlyBy rows field).map QuarterlyGroup.quarters).map share).sum =
      (rows.map own).sum := by
  rw [List.map_map, ((quarterlyBy_perm rows field).map _).sum_eq, List.map_map]
  exact Keyed.sum_measure_collect h rows

/-- The months of the rows that have a date, with the amounts. -/
def dated (rows : List (Row α)) : List (Month × α) :=
  rows.filterMap fun row => row.month?.map fun month => (month, row.amount)

/-- Every row either has a date or has none. -/
lemma sum_dated_add_sum_undated (rows : List (Row K)) :
    ((dated rows).map Prod.snd).sum + (rows.map Row.undated).sum = (rows.map Row.amount).sum := by
  induction rows with
  | nil => simp [dated]
  | cons row rows ih =>
    rw [List.map_cons, List.sum_cons, List.map_cons, List.sum_cons, ← ih]
    cases hmonth : row.month with
    | none =>
      have hrow : dated (row :: rows) = dated rows := by simp [dated, Row.month?, hmonth]
      have hundated : row.undated = row.amount := by simp [Row.undated, hmonth]
      rw [hrow, hundated, add_left_comm]
    | some date =>
      have hrow : dated (row :: rows) = (date.month, row.amount) :: dated rows := by
        simp [dated, Row.month?, hmonth]
      have hundated : row.undated = 0 := by simp [Row.undated, hmonth]
      rw [hrow, hundated, zero_add, List.map_cons, List.sum_cons, add_assoc]

/-- What a dated amount leaves under its period. -/
def enterAmount (entry : Month × α) (held : Option α) : α :=
  held.getD Amount.zero + entry.2

/-- Periods of any length are collected from the months. -/
lemma foldl_bookPeriod {κ : Type} [DecidableEq κ] (period : Month → κ) (rows : List (Row α)) :
    rows.foldl (bookPeriod period) [] =
      Keyed.collect (fun entry => period entry.1) enterAmount (dated rows) := by
  unfold Keyed.collect dated
  rw [List.foldl_filterMap]
  congr 1
  funext t row
  unfold bookPeriod
  cases row.month? <;> rfl

/-- Sorted by time, the periods follow one another, each of them once. -/
lemma pairwise_sorted_bookPeriod {κ : Type} [DecidableEq κ] {year : κ → ℤ} {number : κ → ℕ}
    {r : κ → κ → Bool} (period : Month → κ) (h : Chronological year number r)
    (rows : List (Row α)) :
    ((rows.foldl (bookPeriod period) []).mergeSort fun a b => r a.1 b.1).Pairwise fun a b =>
      year a.1 < year b.1 ∨ year a.1 = year b.1 ∧ number a.1 < number b.1 := by
  rw [foldl_bookPeriod]
  refine (h.arranges.pairwise_mergeSort_ne (Keyed.nodup_keys_collect _)).imp ?_
  exact fun hnext => h.earlier hnext.1 hnext.2

/-- A dated amount adds itself to its period. -/
lemma addsShare_amount :
    Keyed.AddsShare (enterAmount : Month × K → Option K → K) id Prod.snd := by
  intro entry held
  cases held with
  | none => simp [enterAmount, Keyed.measured]
  | some v => rfl

lemma monthlyTotals_perm (rows : List (Row K)) :
    (monthlyTotals rows).Perm (Keyed.collect Prod.fst enterAmount (dated rows)) := by
  rw [monthlyTotals, foldl_bookPeriod]
  exact List.mergeSort_perm _ _

/-- The months together with the rows without a date are all rows. -/
theorem sum_monthlyTotals (rows : List (Row K)) :
    ((monthlyTotals rows).map Prod.snd).sum + (rows.map Row.undated).sum =
      (rows.map Row.amount).sum := by
  have hsum : ((Keyed.collect Prod.fst enterAmount (dated rows)).map Prod.snd).sum =
      ((dated rows).map Prod.snd).sum := Keyed.sum_measure_collect addsShare_amount (dated rows)
  rw [((monthlyTotals_perm rows).map Prod.snd).sum_eq, ← sum_dated_add_sum_undated]
  exact congrArg (· + (rows.map Row.undated).sum) hsum

/-- The entries of the months have their revenues. -/
lemma map_revenue_monthEntriesFrom (before : Option K) (monthly : List (Month × K)) :
    (monthEntriesFrom before monthly).map MonthEntry.revenue = monthly.map Prod.snd := by
  induction monthly generalizing before with
  | nil => rfl
  | cons entry rest ih => exact congrArg (entry.2 :: ·) (ih (some entry.2))

end Ledger

end RevenueDesk
