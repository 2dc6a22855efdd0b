/-
# The time view, month by month

Read exactly, the time view has an entry for each month that some row is dated in, in
chronological order, with the revenue of the rows of the month.  Each entry grows from the one
before it.  The latest entry and the best one are told by what stands around them in the list
(`monthByMonth`).

Rows without a date count in the number of rows and show nowhere else
(`TrendView.of_withoutUndated`).
-/
import RevenueDesk.Dashboard.Trend
import RevenueDesk.Proofs.Ledger.Chronology

namespace RevenueDesk

open Ledger

/-! ## The best month -/

section Best

variable {K : Type} [LinearOrder K] {months : List (MonthEntry K)} {m m' : MonthEntry K}

/-- The first of the entries with the largest revenue. -/
def IsBest (months : List (MonthEntry K)) (m : MonthEntry K) : Prop :=
  ∃ before after, months = before ++ m :: after ∧
    (∀ e ∈ before, e.revenue < m.revenue) ∧ ∀ e ∈ after, e.revenue ≤ m.revenue

/-- There is one such entry at most. -/
lemma IsBest.unique (h : IsBest months m) (h' : IsBest months m') : m = m' := by
  obtain ⟨before, after, rfl, hbefore, hafter⟩ := h
  obtain ⟨before', after', heq, hbefore', hafter'⟩ := h'
  rcases List.append_eq_append_iff.mp heq with ⟨between, hb, ha⟩ | ⟨between, hb, ha⟩
  · cases between with
    | nil => exact (List.cons.inj ha).1
    | cons e between =>
      -- the second entry comes after the first one
      obtain ⟨rfl, rfl⟩ := List.cons.inj ha
      have hlt := hbefore' m (by simp [hb])
      exact absurd (hafter m' (by simp)) hlt.not_ge
  · cases between with
    | nil => exact (List.cons.inj ha).1.symm
    | cons e between =>
      obtain ⟨rfl, rfl⟩ := List.cons.inj ha
      have hlt := hbefore m' (by simp [hb])
      exact absurd (hafter' m (by simp)) hlt.not_ge

namespace TrendView

variable [Field K]

lemma foldl_better_eq_none_iff : months.foldl better none = none ↔ months = [] := by
  cases months using List.reverseRecOn with
  | nil => simp
  | append_singleton months m =>
    rw [List.foldl_append, List.foldl_cons, List.foldl_nil]
    have hsome : better (months.foldl better none) m ≠ none := by
      unfold better
      split
      · split <;> simp
      · simp
    simp [hsome]

lemma isBest_of_foldl_better (h : months.foldl better none = some m) : IsBest months m := by
  induction months using List.reverseRecOn generalizing m with
  | nil => simp at h
  | append_singleton months x ih =>
    rw [List.foldl_append, List.foldl_cons, List.foldl_nil] at h
    cases hbest : months.foldl better none with
    | none =>
      obtain rfl := foldl_better_eq_none_iff.mp hbest
      obtain rfl : x = m := by simpa [better] using h
      exact ⟨[], [], rfl, by simp, by simp⟩
    | some b =>
      obtain ⟨before, after, rfl, hbefore, hafter⟩ := ih hbest
      rw [hbest] at h
      by_cases hle : x.revenue ≤ b.revenue
      · obtain rfl : b = m := by simpa [better, hle] using h
        refine ⟨before, after ++ [x], by simp, hbefore, ?_⟩
        simpa [or_imp, forall_and] using ⟨hafter, hle⟩
      · obtain rfl : x = m := by simpa [better, hle] using h
        have hlt := lt_of_not_ge hle
        refine ⟨before ++ b :: after, [], by simp, ?_, by simp⟩
        intro e he
        rcases List.mem_append.mp he with he | he
        · exact (hbefore e he).trans hlt
        · rcases List.mem_cons.mp he with rfl | he
          · exact hlt
          · exact (hafter e he).trans_lt hlt

theorem foldl_better_eq_some_iff : months.foldl better none = some m ↔ IsBest months m := by
  constructor
  · exact isBest_of_foldl_better
  · intro h
    cases hbest : months.foldl better none with
    | none =>
      obtain ⟨before, after, heq, -, -⟩ := h
      simp [foldl_better_eq_none_iff.mp hbest] at heq
    | some b => rw [(isBest_of_foldl_better hbest).unique h]

end TrendView

end Best

/-! ## The latest month -/

section Latest

variable {α : Type} {months : List (MonthEntry α)}
  (h : months.Pairwise fun a b => a.month.Before b.month)
include h

/-- Of months in chronological order the last one is the one that none comes after. -/
theorem getLast?_eq_some_iff_atMost {m : MonthEntry α} :
    months.getLast? = some m ↔ m ∈ months ∧ ∀ e ∈ months, e.month.atMost m.month = true := by
  rcases List.eq_nil_or_concat months with rfl | ⟨before, last, rfl⟩
  · simp
  rw [List.concat_eq_append] at h ⊢
  have hlast := (List.pairwise_append.mp h).2.2
  rw [List.getLast?_concat, Option.some_inj]
  constructor
  · rintro rfl
    refine ⟨by simp, fun e he => ?_⟩
    rcases List.mem_append.mp he with he | he
    · exact (hlast e he last List.mem_cons_self).atMost
    · rw [List.mem_singleton.mp he]
      exact Month.chronological.iff.mpr (Or.inr ⟨rfl, le_rfl⟩)
  · rintro ⟨hm, hmost⟩
    rcases List.mem_append.mp hm with hm | hm
    · have hbefore := hlast m hm last List.mem_cons_self
      exact absurd (Month.chronological.arranges.antisymm hbefore.atMost (hmost last (by simp)))
        hbefore.ne
    · exact (List.mem_singleton.mp hm).symm

end Latest

/-! ## The view -/

variable {α : Type} [Amount α]

/-- A snapshot without the rows that have no date. -/
def Snapshot.withoutUndated (s : Snapshot α) : Snapshot α :=
  { s with rows := s.rows.filter fun row => row.month.isSome }

/-- Rows without a date show in the number of rows only. -/
theorem TrendView.of_withoutUndated (s : Snapshot α) :
    TrendView.of s = { TrendView.of s.withoutUndated with
      source := { s.withoutUndated.source with rowCount := s.rows.length } } := by
  simp only [TrendView.of, Snapshot.withoutUndated, Snapshot.source, monthlyTotals_filter]

/-- The view tells the months of the rows. -/
structure TellsMonths (value : α → ℚ) (s : Snapshot α) (view : TrendView ℚ) : Prop where
  /-- There is an entry for each month that some row is dated in. -/
  mem_iff : ∀ month, month ∈ view.months.map MonthEntry.month ↔
    ∃ row ∈ s.rows, row.month? = some month
  /-- The entries are in chronological order, so no month has two of them. -/
  chronological : view.months.Pairwise fun a b => a.month.Before b.month
  /-- Nor do the texts of two months agree. -/
  texts : (view.months.map fun m => m.month.text).Nodup
  /-- An entry has the revenue of all rows of its month. -/
  revenue : ∀ m ∈ view.months,
    m.revenue = worthOf value (s.rows.filter fun row => row.month? = some m.month)
  /-- There is no growth of the first entry. -/
  first : ∀ m, view.months.head? = some m → m.growth = none
  /-- The others grow from the entry before. -/
  growth : view.months.IsChain GrowsFrom
  /-- No row has a later date than the latest entry. -/
  latest : ∀ m, view.latestMonth = some m ↔ m ∈ view.months ∧
    ∀ row ∈ s.rows, ∀ month, row.month? = some month → month.atMost m.month = true
  momGrowth : view.momGrowth = view.latestMonth.bind MonthEntry.growth
  /-- The best entry is the first one with the largest revenue. -/
  best : ∀ m, view.bestMonth = some m ↔ IsBest view.months m
  /-- Both are missing only if there are no entries. -/
  missing : (view.latestMonth = none ↔ view.months = []) ∧
    (view.bestMonth = none ↔ view.months = [])
  /-- Rows without a date show in the number of rows only. -/
  undated : view = { TrendView.of (s.withoutUndated.reading value) with
    source := { s.withoutUndated.source with rowCount := s.rows.length } }

section View

variable (value : α → ℚ) (s : Snapshot α)

lemma map_months_reading :
    (TrendView.of (s.reading value)).months.map (fun m => (m.month, m.revenue)) =
      monthlyTotals (s.reading value).rows :=
  map_monthEntriesFrom none _

/-- Reading the figures does not touch the dates. -/
lemma exists_month_reading (month : Month) :
    (∃ row ∈ (s.reading value).rows, row.month? = some month) ↔
      ∃ row ∈ s.rows, row.month? = some month := by
  simp [Snapshot.reading, Row.reading, Row.month?]

lemma mem_months_reading (month : Month) :
    month ∈ (TrendView.of (s.reading value)).months.map MonthEntry.month ↔
      ∃ row ∈ s.rows, row.month? = some month := by
  rw [← exists_month_reading value, ← mem_months, ← map_months_reading, List.map_map]
  rfl

lemma before_months_reading :
    (TrendView.of (s.reading value)).months.Pairwise fun a b => a.month.Before b.month := by
  have hbefore := before_monthlyTotals (s.reading value).rows
  rw [← map_months_reading, List.pairwise_map] at hbefore
  exact hbefore

lemma revenue_months_reading {m : MonthEntry ℚ}
    (hm : m ∈ (TrendView.of (s.reading value)).months) :
    m.revenue = worthOf value (s.rows.filter fun row => row.month? = some m.month) := by
  have hmem := List.mem_map_of_mem (f := fun m => (m.month, m.revenue)) hm
  rw [map_months_reading] at hmem
  have hfilter : (s.reading value).rows.filter (fun row => row.month? = some m.month) =
      (s.rows.filter fun row => row.month? = some m.month).map (Row.reading value) := by
    rw [Snapshot.reading, List.filter_map]
    rfl
  rw [← sum_amount_reading, ← hfilter]
  exact revenue_of_mem_monthlyTotals hmem

/-- No two months of the view are shown by the same text. -/
lemma nodup_texts_reading :
    ((TrendView.of (s.reading value)).months.map fun m => m.month.text).Nodup :=
  List.pairwise_map.mpr ((before_months_reading value s).imp fun hbefore =>
    Month.text_injective.ne hbefore.ne)

lemma latestMonth_reading (m : MonthEntry ℚ) :
    (TrendView.of (s.reading value)).latestMonth = some m ↔
      m ∈ (TrendView.of (s.reading value)).months ∧
        ∀ row ∈ s.rows, ∀ month, row.month? = some month → month.atMost m.month = true := by
  refine (getLast?_eq_some_iff_atMost (before_months_reading value s)).trans
    (and_congr_right fun _ => ?_)
  rw [← List.forall_mem_map (P := fun month => Month.atMost month m.month = true)]
  simp only [mem_months_reading]
  exact ⟨fun h row hrow month hmonth => h month ⟨row, hrow, hmonth⟩,
    fun h month ⟨row, hrow, hmonth⟩ => h row hrow month hmonth⟩

/-- The time view tells the months of the rows. -/
theorem monthByMonth : TellsMonths value s (TrendView.of (s.reading value)) where
  mem_iff := mem_months_reading value s
  chronological := before_months_reading value s
  texts := nodup_texts_reading value s
  revenue _ := revenue_months_reading value s
  first _ := growth_of_head_monthOverMonth
  growth := isChain_monthOverMonth _
  latest := latestMonth_reading value s
  momGrowth := rfl
  best _ := TrendView.foldl_better_eq_some_iff
  missing := ⟨List.getLast?_eq_none_iff, TrendView.foldl_better_eq_none_iff⟩
  undated := by
    have hrows : (s.reading value).withoutUndated = s.withoutUndated.reading value := by
      simp only [Snapshot.withoutUndated, Snapshot.reading, List.filter_map]
      rfl
    have hsource : (s.withoutUndated.reading value).source = s.withoutUndated.source := by
      simp [Snapshot.source, Snapshot.reading]
    have hcount : (s.reading value).rows.length = s.rows.length := List.length_map _
    rw [TrendView.of_withoutUndated, hrows, hsource, hcount]

end View

end RevenueDesk
