/-
# The order of the rows

The revenue table has no order of its own, and the tables in which rows are collected do not
keep one either.  Read exactly, no view depends on any of it (`rowOrder`): the same rows in
another order give the same five views, with all lists in the same order.

There are two reasons, and the proof takes them one after the other.  What a key holds is a
sum, and a sum does not depend on the order of its terms; so the same rows leave the same
entries (`Keyed.collect_perm`).  And every list of entries is sorted by an order that tells
their keys apart; so it does not matter how the entries come out (`rankBy_eq_of_perm`).
-/
import RevenueDesk.Dashboard.Designations
import RevenueDesk.Dashboard.Managers
import RevenueDesk.Dashboard.Skills
import RevenueDesk.Dashboard.Trend
import RevenueDesk.Proofs.Ledger.Periods
import RevenueDesk.Proofs.Ledger.Reference

namespace RevenueDesk

open Ledger

section Exact

variable {K : Type} [Field K] [LinearOrder K]

namespace Ledger

/-! ## Amounts in any order -/

lemma commutes_enter : Keyed.Commutes (enter : String × K → Option (K × ℕ) → K × ℕ) := by
  intro entry entry' held
  simp only [enter, Option.getD_some]
  rw [add_right_comm]

lemma commutes_enterQuarter : Keyed.Commutes (enterQuarter : Row K → _) := by
  intro row row' held
  simp only [enterQuarter, Option.getD_some]
  rw [Breakdown.add_eq_merge, Breakdown.add_eq_merge (held.getD .zero),
    Breakdown.merge_right_comm, ← Breakdown.add_eq_merge, ← Breakdown.add_eq_merge]

lemma commutes_enterAmount : Keyed.Commutes (enterAmount : Month × K → Option K → K) := by
  intro entry entry' held
  simp only [enterAmount, Option.getD_some]
  rw [add_right_comm]

/-! ## Lists in any order -/

/-- The groups of a table of keys with their breakdowns. -/
noncomputable def quarterlyGroupsOf (table : List (String × Breakdown K)) :
    List (QuarterlyGroup K) :=
  rankBy (fun g => (g.key, g.revenue))
    (table.map fun (key, quarters) => ⟨key, quarters, quarters.total⟩)

variable {rows rows' : List (Row K)} (h : rows.Perm rows')
include h

/-- Neither the order of the rows shows in the groups nor the one of the table. -/
theorem tableGroups_eq_of_perm (keys : Row K → List String) {table : List (String × K × ℕ)}
    (htable : table.Perm (tally rows keys)) : tableGroups table = groupByKeys rows' keys := by
  have hentries : (entries rows keys).Perm (entries rows' keys) := h.flatMap_right _
  have htally : table.Perm (tally rows' keys) := by
    rw [tally_eq_collect] at htable ⊢
    exact htable.trans (Keyed.collect_perm commutes_enter hentries)
  exact tableGroups_eq htally

/-- The same of the groups with their breakdowns. -/
theorem quarterlyGroupsOf_eq (field : Row K → Option String)
    {table : List (String × Breakdown K)}
    (htable : table.Perm (rows.foldl (bookQuarter field) [])) :
    quarterlyGroupsOf table = quarterlyBy rows' field := by
  have hcollected : table.Perm
      (Keyed.collect (fun row => keyOf (field row)) enterQuarter rows') := by
    rw [foldl_bookQuarter] at htable
    exact htable.trans (Keyed.collect_perm commutes_enterQuarter h)
  refine rankBy_eq_of_perm (hcollected.map _) ?_
  rw [List.map_map, (hcollected.map _).nodup_iff]
  exact Keyed.nodup_keys_collect _

lemma groupByKeys_eq_of_perm (keys : Row K → List String) :
    groupByKeys rows keys = groupByKeys rows' keys :=
  tableGroups_eq_of_perm h keys (.refl _)

lemma quarterlyBy_eq_of_perm (field : Row K → Option String) :
    quarterlyBy rows field = quarterlyBy rows' field :=
  quarterlyGroupsOf_eq h field (.refl _)

/-- The order of the rows does not show in the revenue of sorted periods. -/
lemma sorted_bookPeriod_eq_of_perm {κ : Type} [DecidableEq κ] (period : Month → κ)
    {atMost : κ → κ → Bool} (harranges : Arranges atMost) :
    ((rows.foldl (bookPeriod period) []).mergeSort fun a b => atMost a.1 b.1) =
      (rows'.foldl (bookPeriod period) []).mergeSort fun a b => atMost a.1 b.1 := by
  have hcommutes : Keyed.Commutes (enterAmount : Month × K → Option K → K) := commutes_enterAmount
  rw [foldl_bookPeriod, foldl_bookPeriod]
  exact harranges.mergeSort_eq (Keyed.collect_perm hcommutes (h.filterMap _))
    (Keyed.nodup_keys_collect _)

lemma monthlyTotals_eq_of_perm : monthlyTotals rows = monthlyTotals rows' :=
  sorted_bookPeriod_eq_of_perm h id Month.chronological.arranges

lemma calendarQuarters_eq_of_perm : calendarQuarters rows = calendarQuarters rows' :=
  sorted_bookPeriod_eq_of_perm h Month.calendarQuarter CalendarQuarter.chronological.arranges

end Ledger

end Exact

/-! ## The views -/

/-- Two snapshots hold the same rows, if not in the same order. -/
structure Snapshot.SameRows {α : Type} (s s' : Snapshot α) : Prop where
  rows : s.rows.Perm s'.rows
  degraded : s.degraded = s'.degraded

namespace Snapshot.SameRows

lemma source_eq {α : Type} {s s' : Snapshot α} (h : SameRows s s') : s.source = s'.source := by
  rw [source, source, h.rows.length_eq, h.degraded]

lemma reading {α K : Type} [Amount α] {s s' : Snapshot α} (h : SameRows s s') (value : α → K) :
    SameRows (s.reading value) (s'.reading value) :=
  ⟨h.rows.map _, h.degraded⟩

end Snapshot.SameRows

variable {α : Type} [Amount α] {K : Type} [Field K] [LinearOrder K]

lemma Snapshot.SameRows.totalRevenue_eq {s s' : Snapshot K} (h : SameRows s s') :
    s.totalRevenue = s'.totalRevenue := by
  rw [totalRevenue, totalRevenue, Amount.sum_eq_sum, Amount.sum_eq_sum]
  exact (h.rows.map _).sum_eq

section View

variable {s s' : Snapshot K} (h : s.SameRows s')
include h

lemma ExecutiveView.of_eq_of_sameRows : ExecutiveView.of s = ExecutiveView.of s' := by
  have hclients : groupBy s.rows Row.customer = groupBy s'.rows Row.customer :=
    groupByKeys_eq_of_perm h.rows _
  simp only [ExecutiveView.of, hclients, h.totalRevenue_eq, h.source_eq]

lemma SkillsView.of_eq_of_sameRows : SkillsView.of s = SkillsView.of s' := by
  have hskills : groupByEach s.rows Row.skill = groupByEach s'.rows Row.skill :=
    groupByKeys_eq_of_perm h.rows _
  simp only [SkillsView.of, hskills, h.source_eq]

lemma DesignationsView.of_eq_of_sameRows : DesignationsView.of s = DesignationsView.of s' := by
  have hroles : groupBy s.rows Row.designation = groupBy s'.rows Row.designation :=
    groupByKeys_eq_of_perm h.rows _
  simp only [DesignationsView.of, hroles, h.source_eq]

lemma TrendView.of_eq_of_sameRows : TrendView.of s = TrendView.of s' := by
  have hmonths : monthlyTotals s.rows = monthlyTotals s'.rows := monthlyTotals_eq_of_perm h.rows
  simp only [TrendView.of, hmonths, h.source_eq]

lemma ManagersView.of_eq_of_sameRows : ManagersView.of s = ManagersView.of s' := by
  have hmanagers : quarterlyBy s.rows Row.manager = quarterlyBy s'.rows Row.manager :=
    quarterlyBy_eq_of_perm h.rows _
  have hquarters : calendarQuarters s.rows = calendarQuarters s'.rows :=
    calendarQuarters_eq_of_perm h.rows
  simp only [ManagersView.of, hmanagers, hquarters, h.source_eq]

end View

/-- Two snapshots show the same, with the figures read as exact numbers. -/
structure ShowSame (value : α → K) (s s' : Snapshot α) : Prop where
  executive : ExecutiveView.of (s.reading value) = ExecutiveView.of (s'.reading value)
  skills : SkillsView.of (s.reading value) = SkillsView.of (s'.reading value)
  designations : DesignationsView.of (s.reading value) = DesignationsView.of (s'.reading value)
  trend : TrendView.of (s.reading value) = TrendView.of (s'.reading value)
  managers : ManagersView.of (s.reading value) = ManagersView.of (s'.reading value)
  /-- The groups are the same however the entries of a table come out. -/
  groups : ∀ keys table, table.Perm (tally (s.reading value).rows keys) →
    tableGroups table = groupByKeys (s'.reading value).rows keys
  quarterlyGroups : ∀ field table,
    table.Perm ((s.reading value).rows.foldl (bookQuarter field) []) →
      quarterlyGroupsOf table = quarterlyBy (s'.reading value).rows field

/-- The order of the rows does not show in any view. -/
theorem rowOrder (value : α → K) {s s' : Snapshot α} (h : s.SameRows s') :
    ShowSame value s s' := by
  have hexact := h.reading value
  exact
    { executive := ExecutiveView.of_eq_of_sameRows hexact
      skills := SkillsView.of_eq_of_sameRows hexact
      designations := DesignationsView.of_eq_of_sameRows hexact
      trend := TrendView.of_eq_of_sameRows hexact
      managers := ManagersView.of_eq_of_sameRows hexact
      groups := fun keys _ htable => tableGroups_eq_of_perm hexact.rows keys htable
      quarterlyGroups := fun field _ htable => quarterlyGroupsOf_eq hexact.rows field htable }

/-- A sheet shows the same if it is read from its last row to its first. -/
theorem rowOrder_reversed :
    raggedSheet.SameRows ⟨raggedSheet.rows.reverse, false⟩ ∧
      ShowSame (Binary64.value : Binary64 → ℚ) raggedSheet ⟨raggedSheet.rows.reverse, false⟩ := by
  have hreversed : raggedSheet.SameRows ⟨raggedSheet.rows.reverse, false⟩ :=
    ⟨(List.reverse_perm _).symm, rfl⟩
  exact ⟨hreversed, rowOrder Binary64.value hreversed⟩

end RevenueDesk
