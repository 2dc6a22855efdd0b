/-
# Months in quarters, quarters in breakdowns

Revenue by month, by quarter of a year and by quarter of the year over all years is booked in
three ways, each from the rows anew.  The coarser buckets are nevertheless made of the finer
ones:

* `calendarQuarters_eq_regrouped`: the quarters of the years are the months, put together;
* `sum_quarter_calendarQuarters`, `sum_part_quarterlyBy`: a quarter over all years is the same
  revenue in the quarters of the years and in the breakdowns.

Groups are booked in two ways, with their breakdowns and without.  Both are ranked by the
same figures, so the rankings show the same (`figures_quarterlyBy`).
-/
import Mathlib.Data.List.Dedup
import RevenueDesk.Proofs.Ledger.Periods

namespace RevenueDesk

variable {α : Type} [Amount α] {K : Type} [Field K] [LinearOrder K]

/-! ## Time in quarters -/

lemma Month.number_quarter_le {a b : Month} (h : a.number ≤ b.number) :
    a.quarter.number ≤ b.quarter.number := by
  unfold Month.quarter
  split_ifs <;> simp only [Quarter.number] <;> omega

/-- Of two months the later one is not in an earlier quarter. -/
lemma Month.atMost_calendarQuarter {a b : Month} (h : a.atMost b = true) :
    a.calendarQuarter.atMost b.calendarQuarter = true := by
  rw [CalendarQuarter.chronological.iff]
  rcases Month.chronological.iff.mp h with hyear | ⟨hyear, hnumber⟩
  · exact Or.inl hyear
  · exact Or.inr ⟨hyear, Month.number_quarter_le hnumber⟩

/-- A quarter of a year comes before another one. -/
def CalendarQuarter.Before (a b : CalendarQuarter) : Prop :=
  a.year < b.year ∨ a.year = b.year ∧ a.quarter.number < b.quarter.number

/-! ## Parts of a breakdown -/

namespace Breakdown

/-- The part of a quarter. -/
def part (quarter : Quarter) (b : Breakdown α) : α :=
  match quarter with
  | .q1 => b.q1
  | .q2 => b.q2
  | .q3 => b.q3
  | .q4 => b.q4

@[simp] lemma part_zero (quarter : Quarter) : (zero : Breakdown K).part quarter = 0 := by
  cases quarter <;> exact Amount.zero_eq

/-- An amount counts in the part of its own quarter. -/
lemma part_add (quarter : Quarter) (b : Breakdown K) (own : Option Quarter) (amount : K) :
    (b.add own amount).part quarter =
      b.part quarter + if own = some quarter then amount else 0 := by
  rcases own with _ | own
  · cases quarter <;> simp [add, part]
  · cases own <;> cases quarter <;> simp [add, part]

lemma part_merge (quarter : Quarter) (a b : Breakdown K) :
    (a.merge b).part quarter = a.part quarter + b.part quarter := by
  cases quarter <;> rfl

lemma adds_part (quarter : Quarter) : Adds (part quarter : Breakdown K → K) fun own amount =>
    if own = some quarter then amount else 0 :=
  ⟨part_zero quarter, part_add quarter, part_merge quarter⟩

end Breakdown

/-- The revenue that a row has in a quarter of the year. -/
def Row.within (quarter : Quarter) (row : Row α) : α :=
  if row.month?.map Month.quarter = some quarter then row.amount else Amount.zero

namespace Ledger

lemma addsShare_part (quarter : Quarter) :
    Keyed.AddsShare (enterQuarter : Row K → _) (Breakdown.part quarter) (Row.within quarter) := by
  have hown : (Row.within quarter : Row K → K) = fun row =>
      if row.month?.map Month.quarter = some quarter then row.amount else 0 := by
    funext row
    rw [Row.within, Amount.zero_eq]
  rw [hown]
  exact addsShare_of_adds (Breakdown.adds_part quarter)

/-- The parts of a quarter add up to what the rows have in it. -/
theorem sum_part_quarterlyBy (quarter : Quarter) (rows : List (Row K))
    (field : Row K → Option String) :
    (((quarterlyBy rows field).map QuarterlyGroup.quarters).map (Breakdown.part quarter)).sum =
      (rows.map (Row.within quarter)).sum :=
  sum_share_quarterlyBy (addsShare_part quarter) rows field

/-- The dated amounts of a quarter are what the rows have in it. -/
lemma sum_within (quarter : Quarter) (rows : List (Row K)) :
    (((dated rows).filter fun e => e.1.quarter = quarter).map Prod.snd).sum =
      (rows.map (Row.within quarter)).sum := by
  induction rows with
  | nil => rfl
  | cons row rows ih =>
    rw [List.map_cons, List.sum_cons, ← ih, Row.within, Amount.zero_eq]
    cases hmonth : row.month? with
    | none => simp [dated, hmonth]
    | some month =>
      by_cases hquarter : month.quarter = quarter <;> simp [dated, hmonth, hquarter]

/-! ## Periods -/

section Periods

variable {κ : Type} [DecidableEq κ]

/-- The periods with a property hold the amounts whose period has it. -/
lemma sum_filter_collect (p : κ → Bool) (period : Month → κ) (amounts : List (Month × K)) :
    (((Keyed.collect (fun e => period e.1) enterAmount amounts).filter fun e => p e.1).map
        Prod.snd).sum =
      ((amounts.filter fun e => p (period e.1)).map Prod.snd).sum := by
  rw [Keyed.filter_collect]
  exact Keyed.sum_measure_collect addsShare_amount _

end Periods

lemma calendarQuarters_perm (rows : List (Row K)) :
    (calendarQuarters rows).Perm
      (Keyed.collect (fun e => e.1.calendarQuarter) enterAmount (dated rows)) := by
  rw [calendarQuarters, foldl_bookPeriod]
  exact List.mergeSort_perm _ _

lemma nodup_calendarQuarters (rows : List (Row K)) :
    ((calendarQuarters rows).map Prod.fst).Nodup := by
  rw [((calendarQuarters_perm rows).map Prod.fst).nodup_iff]
  exact Keyed.nodup_keys_collect _

/-- The quarters of the years come in chronological order, each of them once. -/
theorem before_calendarQuarters (rows : List (Row K)) :
    (calendarQuarters rows).Pairwise fun a b => a.1.Before b.1 :=
  pairwise_sorted_bookPeriod Month.calendarQuarter CalendarQuarter.chronological rows

/-- A quarter over all years holds what the rows have in it. -/
theorem sum_quarter_calendarQuarters (quarter : Quarter) (rows : List (Row K)) :
    (((calendarQuarters rows).filter fun e => e.1.quarter = quarter).map Prod.snd).sum =
      (rows.map (Row.within quarter)).sum := by
  rw [(((calendarQuarters_perm rows).filter _).map Prod.snd).sum_eq, ← sum_within]
  exact sum_filter_collect (fun q => q.quarter = quarter) Month.calendarQuarter (dated rows)

/-! ## Months put together -/

/-- The revenue of months, put together by the quarters of their years. -/
def regrouped (monthly : List (Month × α)) : List (CalendarQuarter × α) :=
  (monthly.map fun e => e.1.calendarQuarter).dedup.map fun q =>
    (q, Amount.total ((monthly.filter fun e => e.1.calendarQuarter = q).map Prod.snd))

/-- A quarter holds what its months hold. -/
lemma total_months_of_mem_calendarQuarters {rows : List (Row K)} {e : CalendarQuarter × K}
    (he : e ∈ calendarQuarters rows) :
    e.2 = Amount.total
      (((monthlyTotals rows).filter fun m => m.1.calendarQuarter = e.1).map Prod.snd) := by
  have hmem := (calendarQuarters_perm rows).mem_iff.mp he
  have hquarter : e.2 = _ := Keyed.measure_of_mem_collect addsShare_amount hmem
  rw [Amount.total_eq_sum, hquarter, (((monthlyTotals_perm rows).filter _).map Prod.snd).sum_eq]
  exact (sum_filter_collect (fun m => m.calendarQuarter = e.1) id (dated rows)).symm

/-- The quarters that have rows are those of the months that have rows. -/
lemma map_fst_calendarQuarters (rows : List (Row K)) :
    (calendarQuarters rows).map Prod.fst =
      ((monthlyTotals rows).map fun e => e.1.calendarQuarter).dedup := by
  have hkeys : ∀ q, q ∈ (calendarQuarters rows).map Prod.fst ↔
      q ∈ ((monthlyTotals rows).map fun e => e.1.calendarQuarter).dedup := by
    intro q
    have hmonths : q ∈ (monthlyTotals rows).map (fun e => e.1.calendarQuarter) ↔
        ∃ m ∈ (monthlyTotals rows).map Prod.fst, m.calendarQuarter = q := by simp
    rw [((calendarQuarters_perm rows).map Prod.fst).mem_iff, Keyed.mem_keys_collect,
      List.mem_dedup, hmonths]
    simp only [((monthlyTotals_perm rows).map Prod.fst).mem_iff, Keyed.mem_keys_collect]
    simp
  have hperm := (List.perm_ext_iff_of_nodup (nodup_calendarQuarters rows)
    (List.nodup_dedup _)).mpr hkeys
  have hmonths : (monthlyTotals rows).Pairwise fun a b => a.1.atMost b.1 = true :=
    Month.chronological.arranges.pairwise_mergeSort _
  have hquarters : (calendarQuarters rows).Pairwise fun a b => a.1.atMost b.1 = true :=
    CalendarQuarter.chronological.arranges.pairwise_mergeSort _
  refine hperm.eq_of_pairwise
    (fun a b _ _ hab hba => CalendarQuarter.chronological.arranges.antisymm hab hba)
    (List.pairwise_map.mpr hquarters) ?_
  refine List.Pairwise.sublist (List.dedup_sublist _) (List.pairwise_map.mpr ?_)
  exact hmonths.imp fun hle => Month.atMost_calendarQuarter hle

/-- The quarters of the years are the months, put together. -/
theorem calendarQuarters_eq_regrouped (rows : List (Row K)) :
    calendarQuarters rows = regrouped (monthlyTotals rows) := by
  rw [regrouped, ← map_fst_calendarQuarters, List.map_map]
  refine (List.map_id _).symm.trans (List.map_congr_left fun e he => ?_)
  exact Prod.ext rfl (total_months_of_mem_calendarQuarters he)

/-! ## Rankings -/

/-- What an entry leaves under its key if only the revenue is booked. -/
def enterFigure (entry : String × α) (held : Option α) : α := held.getD Amount.zero + entry.2

/-- A ranking shows its figures in their own order. -/
lemma map_rankBy {β : Type} (figure : β → String × K) (xs : List β) :
    (rankBy figure xs).map figure = rankBy id (xs.map figure) :=
  List.map_mergeSort fun _ _ _ _ => rfl

section Figures

variable (rows : List (Row K)) (field : Row K → Option String)

lemma figures_groupBy : (groupBy rows field).map (fun g => (g.key, g.revenue)) =
    rankBy id (Keyed.collect Prod.fst enterFigure
      (rows.map fun row => (keyOf (field row), row.amount))) := by
  have hcollect : ∀ es : List (String × K), Keyed.collect Prod.fst enterFigure es =
      (Keyed.collect Prod.fst enter es).map (Prod.map id Prod.fst) := by
    intro es
    conv_lhs => rw [← List.map_id es]
    refine Keyed.collect_map (fun _ => rfl) ?_ es
    rintro entry (_ | held) <;> rfl
  rw [groupBy, groupByKeys_eq, ranked, map_rankBy, List.map_map, entries_single, hcollect]
  rfl

lemma figures_quarterlyBy : (quarterlyBy rows field).map (fun g => (g.key, g.revenue)) =
    rankBy id (Keyed.collect Prod.fst enterFigure
      (rows.map fun row => (keyOf (field row), row.amount))) := by
  -- any key will do, and an unknown one need not be computed
  have hcollect : ∀ key : Row K → String,
      Keyed.collect Prod.fst enterFigure (rows.map fun row => (key row, row.amount)) =
        (Keyed.collect key enterQuarter rows).map (Prod.map id Breakdown.total) := by
    intro key
    refine Keyed.collect_map (fun _ => rfl) ?_ rows
    rintro row (_ | held)
    · simp [enterFigure, enterQuarter, Breakdown.total_add]
    · simp [enterFigure, enterQuarter, Breakdown.total_add]
  rw [quarterlyBy, map_rankBy, List.map_map, foldl_bookQuarter, hcollect]
  rfl

/-- The rankings with and without breakdowns show the same keys with the same revenue. -/
theorem figures_eq : (quarterlyBy rows field).map (fun g => (g.key, g.revenue)) =
    (groupBy rows field).map fun g => (g.key, g.revenue) := by
  rw [figures_quarterlyBy, figures_groupBy]

end Figures

end Ledger

end RevenueDesk
