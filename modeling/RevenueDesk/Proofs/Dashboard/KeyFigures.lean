/-
# The key figures of the executive view

The executive view takes some of its figures over all clients and others over the list that
it shows, where everything after the tenth client is one entry.  Read exactly, the figures
agree with one another and with the rows (`keyFigures`):

* the average over the clients is one that multiplies back to the total;
* the leading client has the largest revenue, and the share of the head is the largest share
  that so many clients can have together;
* head and long tail are everything, and the Pareto curve runs along the shown list to 100;
* without a positive total there are no shares, no concentration and no curve.
-/
import Mathlib.Tactic.GCongr
import Mathlib.Tactic.Positivity
import RevenueDesk.Dashboard.Executive
import RevenueDesk.Proofs.Ledger.Curve
import RevenueDesk.Proofs.Ledger.Measures

namespace RevenueDesk

open Ledger

variable {α : Type} [Amount α]

/-! ## Clients and what they are worth -/

/-- The clients of rows, by their keys. -/
def clientKeys (rows : List (Row α)) : Finset String :=
  (rows.map fun row => keyOf row.customer).toFinset

/-- What a client is worth. -/
def clientWorth (value : α → ℚ) (rows : List (Row α)) (key : String) : ℚ :=
  worthOf value (rows.filter fun row => keyOf row.customer = key)

/-- The share of some clients, in percent of the revenue of all rows. -/
def jointSharePct (value : α → ℚ) (rows : List (Row α)) (keys : Finset String) : ℚ :=
  (∑ key ∈ keys, clientWorth value rows key) / worthOf value rows * 100

/-- The figures of a view whose total is positive. -/
structure SharesAgree (value : α → ℚ) (rows : List (Row α)) (view : ExecutiveView ℚ) : Prop where
  /-- Head and long tail are everything. -/
  whole : view.top5SharePct + view.longTailSharePct = 100
  /-- No five clients, or all if there are fewer, have a larger share than the head. -/
  head : IsGreatest {share | ∃ keys ⊆ clientKeys rows,
    keys.card = min 5 view.clientCount ∧ share = jointSharePct value rows keys} view.top5SharePct
  /-- The concentration index is the sum of the squared shares, up to 10000. -/
  concentration : view.concentrationHhi =
    some ((∑ key ∈ clientKeys rows, (clientWorth value rows key / worthOf value rows) ^ 2) * 10000)
  /-- The curve follows the shown list. -/
  curve : view.pareto.map (fun p => (p.key, p.revenue)) =
    view.clients.map fun c => (c.name, c.revenue)
  /-- It ends at one hundred percent. -/
  curveEnd : view.pareto.getLast?.map ParetoPoint.cumulativePct = some 100

/-- The figures of a view agree with one another and with the rows. -/
structure KeyFiguresAgree (value : α → ℚ) (rows : List (Row α)) (view : ExecutiveView ℚ) :
    Prop where
  total : view.totalRevenue = worthOf value rows
  clientCount : view.clientCount = (clientKeys rows).card
  average : view.avgRevenuePerClient * view.clientCount = view.totalRevenue
  listed : view.clients.length = if view.clientCount ≤ 10 then view.clientCount else 11
  /-- There is a leading client as soon as there are rows. -/
  leader_isSome : view.topClient.isSome ↔ rows ≠ []
  /-- No client is worth more than the leading one. -/
  leader : ∀ top, view.topClient = some top → ∃ key ∈ clientKeys rows,
    top.name = shortClientName key ∧ top.revenue = clientWorth value rows key ∧
      ∀ other ∈ clientKeys rows, clientWorth value rows other ≤ top.revenue
  shares : 0 < view.totalRevenue → SharesAgree value rows view
  noShares : view.totalRevenue ≤ 0 →
    view.top5SharePct = 0 ∧ view.longTailSharePct = 0 ∧
      view.concentrationHhi = none ∧ view.pareto = []

/-! ## The groups of the clients -/

section Groups

/-- The groups that the view is made of. -/
noncomputable def clientGroups (value : α → ℚ) (s : Snapshot α) : List (Group ℚ) :=
  groupBy (s.reading value).rows Row.customer

variable (value : α → ℚ) (s : Snapshot α)

lemma nodup_clientGroups : ((clientGroups value s).map Group.key).Nodup :=
  nodup_keys_groupByKeys _ _

lemma descending_clientGroups :
    ((clientGroups value s).map Group.revenue).Pairwise (· ≥ ·) :=
  descending_groupByKeys _ _

lemma keySet_clientGroups : keySet (clientGroups value s) = clientKeys s.rows := by
  ext key
  rw [keySet, List.mem_toFinset, clientGroups, mem_keys_groupBy, clientKeys, List.mem_toFinset,
    List.mem_map]
  simp [Snapshot.reading, Row.reading]

lemma card_clientKeys : (clientKeys s.rows).card = (clientGroups value s).length := by
  rw [← keySet_clientGroups value, card_keySet (nodup_clientGroups value s)]

lemma revenue_clientGroups :
    ∀ g ∈ clientGroups value s, g.revenue = clientWorth value s.rows g.key := by
  intro g hg
  rw [revenue_of_mem_groupBy hg, clientWorth]
  exact sum_amount_filter_reading value s.rows _

lemma sum_clientGroups :
    ((clientGroups value s).map Group.revenue).sum = worthOf value s.rows := by
  rw [clientGroups, sum_revenue_groupBy]
  exact sum_amount_reading value s.rows

lemma clientGroups_eq_nil_iff : clientGroups value s = [] ↔ s.rows = [] := by
  rw [clientGroups, groupBy_eq_nil_iff, Snapshot.reading, List.map_eq_nil_iff]

end Groups

/-! ## The view -/

section View

variable (value : α → ℚ) (s : Snapshot α)

lemma totalRevenue_reading : (s.reading value).totalRevenue = worthOf value s.rows :=
  (Amount.sum_eq_sum _).trans (sum_amount_reading value s.rows)

/-- The groups that the view shows. -/
noncomputable def shownGroups : List (Group ℚ) :=
  topWithOthers ExecutiveView.topClients (clientGroups value s)

lemma totalOf_shownGroups : totalOf (shownGroups value s) = worthOf value s.rows := by
  rw [shownGroups, totalOf_topWithOthers, totalOf_eq, sum_clientGroups]

lemma average_reading :
    (ExecutiveView.of (s.reading value)).avgRevenuePerClient *
      (ExecutiveView.of (s.reading value)).clientCount = worthOf value s.rows := by
  change (if (clientGroups value s).isEmpty then Amount.zero
    else (s.reading value).totalRevenue / Amount.ofNat (clientGroups value s).length) *
      ((clientGroups value s).length : ℚ) = _
  rw [totalRevenue_reading, Amount.zero_eq, Amount.ofNat_eq]
  by_cases hnil : clientGroups value s = []
  · rw [if_pos (List.isEmpty_iff.mpr hnil), zero_mul, ← sum_clientGroups, hnil]
    rfl
  · have hpos : ((clientGroups value s).length : ℚ) ≠ 0 :=
      Nat.cast_ne_zero.mpr fun h => hnil (List.length_eq_zero_iff.mp h)
    rw [if_neg (by rwa [List.isEmpty_iff])]
    exact div_mul_cancel₀ _ hpos

lemma leader_reading {top : TopEntry ℚ}
    (htop : (ExecutiveView.of (s.reading value)).topClient = some top) :
    ∃ key ∈ clientKeys s.rows, top.name = shortClientName key ∧
      top.revenue = clientWorth value s.rows key ∧
      ∀ other ∈ clientKeys s.rows, clientWorth value s.rows other ≤ top.revenue := by
  obtain ⟨g, hg, rfl⟩ := Option.map_eq_some_iff.mp htop
  change (clientGroups value s).head? = some g at hg
  have hmem : g ∈ clientGroups value s := List.mem_of_mem_head? hg
  have hworth := revenue_clientGroups value s
  refine ⟨g.key, ?_, rfl, hworth g hmem, ?_⟩
  · rw [← keySet_clientGroups value]
    exact mem_keySet.mpr ⟨g, hmem, rfl⟩
  · intro other hother
    rw [← keySet_clientGroups value] at hother
    obtain ⟨g', hg', rfl⟩ := mem_keySet.mp hother
    rw [← hworth g' hg']
    exact revenue_le_of_head? (descending_clientGroups value s) hg hg'

/-- The two shares are those of the head and of the rest of the groups. -/
lemma shares_reading (hpos : 0 < worthOf value s.rows) :
    (ExecutiveView.of (s.reading value)).top5SharePct =
        (((clientGroups value s).take 5).map Group.revenue).sum / worthOf value s.rows * 100 ∧
      (ExecutiveView.of (s.reading value)).longTailSharePct =
        (((clientGroups value s).drop 5).map Group.revenue).sum / worthOf value s.rows * 100 := by
  have hshare : ∀ part : List ℚ, sharePct (Amount.sum part) (s.reading value).totalRevenue =
      part.sum / worthOf value s.rows * 100 := by
    intro part
    rw [totalRevenue_reading, sharePct_of_pos hpos, Amount.sum_eq_sum]
  exact ⟨hshare _, hshare _⟩

lemma whole_reading (hpos : 0 < worthOf value s.rows) :
    (ExecutiveView.of (s.reading value)).top5SharePct +
      (ExecutiveView.of (s.reading value)).longTailSharePct = 100 := by
  obtain ⟨hhead, htail⟩ := shares_reading value s hpos
  have hsum : (((clientGroups value s).take 5).map Group.revenue).sum +
      (((clientGroups value s).drop 5).map Group.revenue).sum = worthOf value s.rows := by
    rw [← List.sum_append, ← List.map_append, List.take_append_drop, sum_clientGroups]
  rw [hhead, htail, ← add_mul, ← add_div, hsum, div_self hpos.ne', one_mul]

lemma head_reading (hpos : 0 < worthOf value s.rows) :
    IsGreatest {share | ∃ keys ⊆ clientKeys s.rows,
      keys.card = min 5 (clientGroups value s).length ∧
        share = jointSharePct value s.rows keys}
      (ExecutiveView.of (s.reading value)).top5SharePct := by
  have hgreatest := isGreatest_head (nodup_clientGroups value s) (revenue_clientGroups value s)
    (descending_clientGroups value s) 5
  rw [keySet_clientGroups] at hgreatest
  obtain ⟨⟨keys, hkeys, hcard, hsum⟩, hmax⟩ := hgreatest
  rw [(shares_reading value s hpos).1]
  constructor
  · exact ⟨keys, hkeys, hcard, by rw [hsum, jointSharePct]⟩
  · rintro share ⟨keys', hkeys', hcard', rfl⟩
    have hle := hmax ⟨keys', hkeys', hcard', rfl⟩
    unfold jointSharePct
    gcongr

lemma concentration_reading (hpos : 0 < worthOf value s.rows) :
    (ExecutiveView.of (s.reading value)).concentrationHhi =
      some ((∑ key ∈ clientKeys s.rows,
        (clientWorth value s.rows key / worthOf value s.rows) ^ 2) * 10000) := by
  have hwhole : totalOf (clientGroups value s) = worthOf value s.rows := by
    rw [totalOf_eq, sum_clientGroups]
  have hindex := concentration?_eq (nodup_clientGroups value s) (revenue_clientGroups value s)
    (by rwa [hwhole])
  rw [keySet_clientGroups, hwhole] at hindex
  exact congrArg (Option.map (· * (10000 : ℚ))) hindex

lemma curve_reading : (ExecutiveView.of (s.reading value)).pareto =
    (pareto (shownGroups value s)).map fun p =>
      { p with key := ExecutiveView.displayName p.key } := rfl

/-- There is a curve, since the groups have a total that shares can be taken of. -/
lemma pareto_shownGroups_ne_nil (hpos : 0 < worthOf value s.rows) :
    pareto (shownGroups value s) ≠ [] := by
  have htotal := totalOf_shownGroups value s
  rw [Ne, (traces_pareto _).eq_nil_iff, htotal, not_or, not_not]
  refine ⟨fun hnil => ?_, by simpa using hpos⟩
  rw [hnil, totalOf_eq] at htotal
  exact hpos.ne htotal

lemma map_curve_reading (hpos : 0 < worthOf value s.rows) :
    (ExecutiveView.of (s.reading value)).pareto.map (fun p => (p.key, p.revenue)) =
      (ExecutiveView.of (s.reading value)).clients.map fun c => (c.name, c.revenue) := by
  have hpoints := (traces_pareto _).points (pareto_shownGroups_ne_nil value s hpos)
  have hnamed := congrArg (List.map (Prod.map ExecutiveView.displayName id)) hpoints
  rw [curve_reading]
  change _ = ((shownGroups value s).map _).map _
  simpa only [List.map_map, Function.comp_def, Prod.map_apply, id_eq] using hnamed

lemma last_curve_reading (hpos : 0 < worthOf value s.rows) :
    (ExecutiveView.of (s.reading value)).pareto.getLast?.map ParetoPoint.cumulativePct =
      some 100 := by
  have hlast := List.getLast?_eq_some_getLast (pareto_shownGroups_ne_nil value s hpos)
  rw [curve_reading, List.getLast?_map, Option.map_map, hlast]
  exact congrArg some (((traces_pareto _).last _ hlast).2.trans Amount.hundred_eq)

lemma noShares_reading (hneg : worthOf value s.rows ≤ 0) :
    (ExecutiveView.of (s.reading value)).top5SharePct = 0 ∧
      (ExecutiveView.of (s.reading value)).longTailSharePct = 0 ∧
      (ExecutiveView.of (s.reading value)).concentrationHhi = none ∧
      (ExecutiveView.of (s.reading value)).pareto = [] := by
  have hshare : ∀ part : ℚ, sharePct part (s.reading value).totalRevenue = 0 := by
    intro part
    rw [totalRevenue_reading, sharePct_of_nonpos hneg]
  have hwhole : totalOf (clientGroups value s) = worthOf value s.rows := by
    rw [totalOf_eq, sum_clientGroups]
  have hindex : concentration? (clientGroups value s) = none := by
    rw [concentration?, hwhole, if_neg (by rwa [sharable_iff, not_lt])]
  have hcurve : pareto (shownGroups value s) = [] := by
    rw [pareto, totalOf_shownGroups, if_neg (by rwa [sharable_iff, not_lt])]
  exact ⟨hshare _, hshare _, congrArg (Option.map _) hindex, congrArg (List.map _) hcurve⟩

/-- The key figures of the executive view agree with one another and with the rows. -/
theorem keyFigures : KeyFiguresAgree value s.rows (ExecutiveView.of (s.reading value)) where
  total := totalRevenue_reading value s
  clientCount := (card_clientKeys value s).symm
  average := (average_reading value s).trans (totalRevenue_reading value s).symm
  listed := (List.length_map _).trans (length_topWithOthers _ _)
  leader_isSome := by
    rw [Ne, ← clientGroups_eq_nil_iff value]
    change ((clientGroups value s).head?.map _).isSome ↔ _
    rw [Option.isSome_map, List.isSome_head?]
  leader _ := leader_reading value s
  shares hpos := by
    replace hpos : 0 < worthOf value s.rows := hpos.trans_eq (totalRevenue_reading value s)
    exact
      { whole := whole_reading value s hpos
        head := head_reading value s hpos
        concentration := concentration_reading value s hpos
        curve := map_curve_reading value s hpos
        curveEnd := last_curve_reading value s hpos }
  noShares hneg := noShares_reading value s ((totalRevenue_reading value s).symm.trans_le hneg)

end View

end RevenueDesk
