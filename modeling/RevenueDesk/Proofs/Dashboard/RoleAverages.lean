/-
# Averages of the roles

The designations view has three kinds of averages: each role has its revenue per row, all
rows together have theirs, and the averages of the roles have a mean of their own.  Read
exactly, they go together (`roleAverages`):

* no role is without rows, and the average of a role multiplies back to the revenue of its rows;
* the revenue per row of all rows is the mean of the averages of the roles in which each role
  counts as often as it has rows (`avgRevenuePerRole_eq`), and the efficiency is the mean in which
  each counts once (`avgEfficiency_eq`);
* both are averages that a role could have, between the smallest and the largest one, and they
  are the same if all roles have the same number of rows.
-/
import Mathlib.Algebra.BigOperators.Ring.Finset
import Mathlib.Data.Set.Finite.Lemmas
import RevenueDesk.Proofs.Dashboard.OneTotal
import RevenueDesk.Proofs.Ledger.Squares

namespace RevenueDesk

open Ledger

/-! ## Weighted means -/

section Means

variable {K β : Type} [Field K]

/-- The mean of the figures, in which each counts with its weight. -/
def weightedMean (weight figure : β → K) (xs : List β) : K :=
  (xs.map fun x => weight x * figure x).sum / (xs.map weight).sum

/-- With equal weights it is the mean. -/
lemma weightedMean_of_const {weight figure : β → K} {xs : List β} {c : K} (hc : c ≠ 0)
    (hweight : ∀ x ∈ xs, weight x = c) :
    weightedMean weight figure xs = meanOf (xs.map figure) := by
  have hfigures : (xs.map fun x => weight x * figure x).sum = c * (xs.map figure).sum := by
    rw [← List.sum_map_mul_left]
    exact congrArg List.sum (List.map_congr_left fun x hx => by rw [hweight x hx])
  have hweights : (xs.map weight).sum = c * xs.length := by
    rw [List.map_congr_left hweight, List.map_const', List.sum_replicate, nsmul_eq_mul, mul_comm]
  rw [weightedMean, hfigures, hweights, mul_div_mul_left _ _ hc, meanOf, List.length_map]

/-- The mean is the one in which every figure counts once. -/
lemma meanOf_eq_weightedMean (figure : β → K) (xs : List β) :
    meanOf (xs.map figure) = weightedMean (fun _ => 1) figure xs :=
  (weightedMean_of_const one_ne_zero fun _ _ => rfl).symm

variable [LinearOrder K] [IsStrictOrderedRing K] {weight figure : β → K} {xs : List β}

/-- A mean with positive weights lies within all bounds of the figures. -/
lemma weightedMean_mem_Icc {lo hi : K} (hne : xs ≠ []) (hpos : ∀ x ∈ xs, 0 < weight x)
    (hbounds : ∀ x ∈ xs, figure x ∈ Set.Icc lo hi) :
    weightedMean weight figure xs ∈ Set.Icc lo hi := by
  have hweights : 0 < (xs.map weight).sum :=
    List.sum_pos _ (by simpa using hpos) (by simpa using hne)
  constructor
  · rw [weightedMean, le_div_iff₀ hweights, ← List.sum_map_mul_left]
    refine List.sum_le_sum fun x hx => ?_
    rw [mul_comm]
    exact mul_le_mul_of_nonneg_left (hbounds x hx).1 (hpos x hx).le
  · rw [weightedMean, div_le_iff₀ hweights, ← List.sum_map_mul_left]
    refine List.sum_le_sum fun x hx => ?_
    rw [mul_comm hi]
    exact mul_le_mul_of_nonneg_left (hbounds x hx).2 (hpos x hx).le

omit [Field K] [IsStrictOrderedRing K] in
/-- Something in a list has the smallest figure, and something has the largest. -/
lemma exists_extremes (hne : xs ≠ []) (figure : β → K) : ∃ low ∈ xs, ∃ high ∈ xs,
    ∀ x ∈ xs, figure x ∈ Set.Icc (figure low) (figure high) := by
  have hsome : {x | x ∈ xs}.Nonempty := List.exists_mem_of_ne_nil xs hne
  obtain ⟨low, hlow, hleast⟩ := Set.exists_min_image _ figure (List.finite_toSet xs) hsome
  obtain ⟨high, hhigh, hgreatest⟩ := Set.exists_max_image _ figure (List.finite_toSet xs) hsome
  exact ⟨low, hlow, high, hhigh, fun x hx => ⟨hleast x hx, hgreatest x hx⟩⟩

end Means

/-! ## The view of exact figures -/

namespace DesignationsView

section Exact

variable {K : Type} [Field K] [LinearOrder K] {s : Snapshot K} {d : DesignationEntry K}

lemma mem_designations : d ∈ (DesignationsView.of s).designations ↔
    ∃ g ∈ groupBy s.rows Row.designation, entry g = d :=
  List.mem_map

/-- The roles are those of the rows. -/
lemma mem_roles {role : String} :
    role ∈ (DesignationsView.of s).designations.map DesignationEntry.designation ↔
      ∃ row ∈ s.rows, keyOf row.designation = role := by
  rw [← mem_keys_groupBy]
  exact iff_of_eq (congrArg (role ∈ ·) (List.map_map ..))

lemma nodup_roles :
    ((DesignationsView.of s).designations.map DesignationEntry.designation).Nodup := by
  have hroles : (DesignationsView.of s).designations.map DesignationEntry.designation =
      (groupBy s.rows Row.designation).map Group.key := List.map_map ..
  rw [hroles]
  exact nodup_keys_groupByKeys _ _

/-- There are roles as soon as there are rows. -/
lemma designations_ne_nil (hrows : s.rows ≠ []) : (DesignationsView.of s).designations ≠ [] := by
  obtain ⟨row, hrow⟩ := List.exists_mem_of_ne_nil _ hrows
  have hrole := mem_roles.mpr ⟨row, hrow, rfl⟩
  exact fun hnil => List.ne_nil_of_mem hrole (by rw [hnil, List.map_nil])

/-- A role has the revenue of its rows. -/
lemma revenue_eq (hd : d ∈ (DesignationsView.of s).designations) : d.revenue =
    ((s.rows.filter fun row => keyOf row.designation = d.designation).map Row.amount).sum := by
  obtain ⟨g, hg, rfl⟩ := mem_designations.mp hd
  exact revenue_of_mem_groupBy hg

/-- It counts them. -/
lemma count_eq (hd : d ∈ (DesignationsView.of s).designations) :
    d.count = s.rows.countP fun row => keyOf row.designation = d.designation := by
  obtain ⟨g, hg, rfl⟩ := mem_designations.mp hd
  exact (groupBy_spec hg).2

/-- There is no role without rows. -/
lemma count_pos (hd : d ∈ (DesignationsView.of s).designations) : 0 < d.count := by
  obtain ⟨row, hrow, hrole⟩ := mem_roles.mp (List.mem_map_of_mem hd)
  rw [count_eq hd]
  exact List.countP_pos_iff.mpr ⟨row, hrow, decide_eq_true hrole⟩

lemma sum_count : ((DesignationsView.of s).designations.map fun d => (d.count : K)).sum =
    (DesignationsView.of s).totalCount := by
  have hcounts : (DesignationsView.of s).designations.map (fun d => (d.count : K)) =
      ((groupBy s.rows Row.designation).map Group.count).map Nat.cast := by
    rw [List.map_map]
    exact List.map_map ..
  rw [hcounts, ← Nat.cast_list_sum]
  exact congrArg Nat.cast (countOf_eq_sum _).symm

/-- The efficiency is the mean of the averages in which each role counts once. -/
lemma avgEfficiency_eq : (DesignationsView.of s).avgEfficiency =
    meanOf ((DesignationsView.of s).designations.map DesignationEntry.avgRevenue) := by
  change (if (DesignationsView.of s).designations.isEmpty then Amount.zero
    else Amount.sum ((DesignationsView.of s).designations.map DesignationEntry.avgRevenue) /
      Amount.ofNat (DesignationsView.of s).designations.length) = _
  rw [meanOf, List.length_map, Amount.sum_eq_sum, Amount.ofNat_eq, Amount.zero_eq]
  split
  · rename_i hnone
    rw [List.isEmpty_iff.mp hnone, List.length_nil, Nat.cast_zero, div_zero]
  · rfl

variable [CharZero K]

/-- The average of a role multiplies back to its revenue. -/
lemma avgRevenue_mul_count (hd : d ∈ (DesignationsView.of s).designations) :
    d.avgRevenue * d.count = d.revenue := by
  have hpos := count_pos hd
  obtain ⟨g, hg, rfl⟩ := mem_designations.mp hd
  have hmax : max g.count 1 = g.count := max_eq_left hpos
  change g.revenue / Amount.ofNat (max g.count 1) * (g.count : K) = g.revenue
  rw [hmax, Amount.ofNat_eq]
  exact div_mul_cancel₀ _ (Nat.cast_ne_zero.mpr (Nat.pos_iff_ne_zero.mp hpos))

/-- What the averages of the roles come to, if each counts as often as the role has rows, is the
whole revenue. -/
lemma sum_count_mul_avgRevenue :
    ((DesignationsView.of s).designations.map fun d => (d.count : K) * d.avgRevenue).sum =
      (DesignationsView.of s).totalRevenue := by
  have hback : (DesignationsView.of s).designations.map (fun d => (d.count : K) * d.avgRevenue) =
      (DesignationsView.of s).designations.map DesignationEntry.revenue :=
    List.map_congr_left fun d hd => by rw [mul_comm, avgRevenue_mul_count hd]
  have hrevenues : (DesignationsView.of s).designations.map DesignationEntry.revenue =
      (groupBy s.rows Row.designation).map Group.revenue := List.map_map ..
  rw [hback, hrevenues]
  exact (totalOf_eq _).symm

/-- The revenue per row is the mean of the averages in which each role counts as often as it has
rows. -/
lemma avgRevenuePerRole_eq : (DesignationsView.of s).avgRevenuePerRole =
    weightedMean (fun d => (d.count : K)) DesignationEntry.avgRevenue
      (DesignationsView.of s).designations := by
  rw [weightedMean, sum_count_mul_avgRevenue, sum_count]
  change (if 0 < (DesignationsView.of s).totalCount then
    (DesignationsView.of s).totalRevenue / Amount.ofNat (DesignationsView.of s).totalCount
    else Amount.zero) = _
  split
  · rfl
  · rename_i hnone
    rw [Nat.pos_iff_ne_zero, not_not] at hnone
    rw [hnone, Nat.cast_zero, div_zero, Amount.zero_eq]

/-- It multiplies back to the whole revenue. -/
lemma avgRevenuePerRole_mul_totalCount :
    (DesignationsView.of s).avgRevenuePerRole * (DesignationsView.of s).totalCount =
      (DesignationsView.of s).totalRevenue := by
  rw [avgRevenuePerRole_eq, weightedMean, sum_count_mul_avgRevenue, sum_count]
  refine div_mul_cancel_of_imp fun hnone => ?_
  rw [Nat.cast_eq_zero, totalCount_eq, List.length_eq_zero_iff] at hnone
  rw [totalRevenue_eq, hnone, List.map_nil, List.sum_nil]

/-- If all roles have the same number of rows, it makes no difference how often they count. -/
lemma avgRevenuePerRole_eq_avgEfficiency
    (halike : ∀ d ∈ (DesignationsView.of s).designations,
      ∀ d' ∈ (DesignationsView.of s).designations, d.count = d'.count) :
    (DesignationsView.of s).avgRevenuePerRole = (DesignationsView.of s).avgEfficiency := by
  rw [avgRevenuePerRole_eq, avgEfficiency_eq]
  by_cases hnil : (DesignationsView.of s).designations = []
  · rw [hnil, weightedMean, meanOf, List.map_nil, List.map_nil, List.map_nil, List.sum_nil,
      zero_div, zero_div]
  · obtain ⟨d, hd⟩ := List.exists_mem_of_ne_nil _ hnil
    have hpos : (d.count : K) ≠ 0 := Nat.cast_ne_zero.mpr (count_pos hd).ne'
    exact weightedMean_of_const hpos fun d' hd' => by rw [halike d' hd' d hd]

end Exact

section Ordered

variable {K : Type} [Field K] [LinearOrder K] [IsStrictOrderedRing K] {s : Snapshot K} {lo hi : K}

/-- The revenue per row lies within all bounds of the averages of the roles. -/
lemma avgRevenuePerRole_mem_Icc (hrows : s.rows ≠ [])
    (hbounds : ∀ d ∈ (DesignationsView.of s).designations, d.avgRevenue ∈ Set.Icc lo hi) :
    (DesignationsView.of s).avgRevenuePerRole ∈ Set.Icc lo hi := by
  rw [avgRevenuePerRole_eq]
  exact weightedMean_mem_Icc (designations_ne_nil hrows)
    (fun d hd => Nat.cast_pos.mpr (count_pos hd)) hbounds

/-- So does the efficiency. -/
lemma avgEfficiency_mem_Icc (hrows : s.rows ≠ [])
    (hbounds : ∀ d ∈ (DesignationsView.of s).designations, d.avgRevenue ∈ Set.Icc lo hi) :
    (DesignationsView.of s).avgEfficiency ∈ Set.Icc lo hi := by
  rw [avgEfficiency_eq, meanOf_eq_weightedMean]
  exact weightedMean_mem_Icc (designations_ne_nil hrows) (fun _ _ => one_pos) hbounds

end Ordered

end DesignationsView

/-! ## Rows of any figures -/

variable {α : Type} [Amount α]

/-- What the rows of a role are worth. -/
def roleWorth (value : α → ℚ) (rows : List (Row α)) (role : String) : ℚ :=
  worthOf value (rows.filter fun row => keyOf row.designation = role)

/-- The averages of a view go together, and with the rows. -/
structure RoleAverages (value : α → ℚ) (rows : List (Row α)) (view : DesignationsView ℚ) :
    Prop where
  /-- There is one entry for every role that rows have. -/
  roles : ∀ role, role ∈ view.designations.map DesignationEntry.designation ↔
    ∃ row ∈ rows, keyOf row.designation = role
  distinct : (view.designations.map DesignationEntry.designation).Nodup
  revenue : ∀ d ∈ view.designations, d.revenue = roleWorth value rows d.designation
  count : ∀ d ∈ view.designations,
    d.count = rows.countP fun row => keyOf row.designation = d.designation
  count_pos : ∀ d ∈ view.designations, 1 ≤ d.count
  /-- The average of a role is its revenue per row. -/
  average : ∀ d ∈ view.designations, d.avgRevenue * d.count = d.revenue
  totalRevenue : view.totalRevenue = worthOf value rows
  totalCount : view.totalCount = rows.length
  /-- The overall average is the revenue per row. -/
  overall : view.avgRevenuePerRole * view.totalCount = view.totalRevenue
  /-- It is the mean of the averages of the roles, each with the number of its rows. -/
  weighted : view.avgRevenuePerRole =
    weightedMean (fun d => (d.count : ℚ)) DesignationEntry.avgRevenue view.designations
  /-- The efficiency is their mean as they are. -/
  plain : view.avgEfficiency = meanOf (view.designations.map DesignationEntry.avgRevenue)
  /-- Both lie between the smallest and the largest average of a role. -/
  between : rows ≠ [] → ∃ low ∈ view.designations, ∃ high ∈ view.designations,
    (∀ d ∈ view.designations, d.avgRevenue ∈ Set.Icc low.avgRevenue high.avgRevenue) ∧
      view.avgRevenuePerRole ∈ Set.Icc low.avgRevenue high.avgRevenue ∧
      view.avgEfficiency ∈ Set.Icc low.avgRevenue high.avgRevenue
  /-- They are the same if all roles have the same number of rows. -/
  alike : (∀ d ∈ view.designations, ∀ d' ∈ view.designations, d.count = d'.count) →
    view.avgRevenuePerRole = view.avgEfficiency

/-- The averages of the designations view go together. -/
theorem roleAverages (value : α → ℚ) (s : Snapshot α) :
    RoleAverages value s.rows (DesignationsView.of (s.reading value)) where
  roles role := by
    rw [DesignationsView.mem_roles]
    simp [Snapshot.reading, Row.reading]
  distinct := DesignationsView.nodup_roles
  revenue d hd := by
    rw [DesignationsView.revenue_eq hd, roleWorth]
    exact sum_amount_filter_reading value _ _
  count d hd := by
    rw [DesignationsView.count_eq hd, Snapshot.reading, List.countP_map]
    refine List.countP_congr fun row _ => ?_
    have hrole : (row.reading value).designation = row.designation := rfl
    rw [Function.comp_apply, hrole]
  count_pos d hd := DesignationsView.count_pos hd
  average d hd := DesignationsView.avgRevenue_mul_count hd
  totalRevenue := (DesignationsView.totalRevenue_eq _).trans (sum_amount_reading value s.rows)
  totalCount := (DesignationsView.totalCount_eq _).trans (List.length_map _)
  overall := DesignationsView.avgRevenuePerRole_mul_totalCount
  weighted := DesignationsView.avgRevenuePerRole_eq
  plain := DesignationsView.avgEfficiency_eq
  between hrows := by
    have hread : (s.reading value).rows ≠ [] := mt List.map_eq_nil_iff.mp hrows
    obtain ⟨low, hlow, high, hhigh, hbounds⟩ :=
      exists_extremes (DesignationsView.designations_ne_nil hread) DesignationEntry.avgRevenue
    exact ⟨low, hlow, high, hhigh, hbounds,
      DesignationsView.avgRevenuePerRole_mem_Icc hread hbounds,
      DesignationsView.avgEfficiency_mem_Icc hread hbounds⟩
  alike := DesignationsView.avgRevenuePerRole_eq_avgEfficiency

end RevenueDesk
