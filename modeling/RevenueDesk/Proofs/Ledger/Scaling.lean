/-
# Another unit of revenue

Revenue counted in another unit is every figure times a factor `c` above zero.  The factor
goes through everything that the ledger does with figures:

* sums take it along, and so do groups, months, quarters and breakdowns (`groupByKeys_scaled`,
  `monthlyTotals_scaled`, `calendarQuarters_scaled`, `quarterlyBy_scaled`);
* comparisons do not see it, so every list keeps its order;
* quotients lose it, so shares, growth, variation and concentration stay as they are
  (`sharePct_mul`, `growthPct?_mul`, `variationPct?_mul`, `concentration?_scaled`).
-/
import Mathlib.Algebra.BigOperators.Ring.List
import Mathlib.Analysis.Real.Sqrt
import RevenueDesk.Proofs.Ledger.Periods

namespace RevenueDesk

open Ledger

/-! ## Figures in another unit -/

section Scaled

variable {K : Type} [Mul K] (c : K)

/-- A row with its revenue in another unit. -/
def Row.scaled (row : Row K) : Row K := { row with revenue := row.revenue.map (c * ·) }

/-- A snapshot with its revenues in another unit. -/
def Snapshot.scaled (s : Snapshot K) : Snapshot K := { s with rows := s.rows.map (Row.scaled c) }

/-- A group with its revenue in another unit. -/
def Group.scaled (g : Group K) : Group K := { g with revenue := c * g.revenue }

/-- A point of a Pareto curve with its revenues in another unit. -/
def Ledger.ParetoPoint.scaled (p : ParetoPoint K) : ParetoPoint K :=
  { p with revenue := c * p.revenue, cumulative := c * p.cumulative }

/-- A month with its revenue in another unit. -/
def MonthEntry.scaled (m : MonthEntry K) : MonthEntry K := { m with revenue := c * m.revenue }

/-- A breakdown in another unit. -/
def Breakdown.scaled (b : Breakdown K) : Breakdown K :=
  ⟨c * b.q1, c * b.q2, c * b.q3, c * b.q4, c * b.undated⟩

/-- A group with its breakdown in another unit. -/
def QuarterlyGroup.scaled (g : QuarterlyGroup K) : QuarterlyGroup K :=
  { g with quarters := g.quarters.scaled c, revenue := c * g.revenue }

end Scaled

section Exact

variable {K : Type} [Field K] [LinearOrder K] {c : K}

/-! ## Sums -/

@[simp] lemma Row.amount_scaled (row : Row K) : (row.scaled c).amount = c * row.amount := by
  unfold Row.amount Row.scaled
  cases row.revenue with
  | none => simp
  | some v => rfl

namespace Breakdown

lemma scaled_zero : (zero : Breakdown K).scaled c = zero := by
  simp [scaled, zero]

lemma scaled_add (b : Breakdown K) (quarter : Option Quarter) (amount : K) :
    (b.add quarter amount).scaled c = (b.scaled c).add quarter (c * amount) := by
  rcases quarter with _ | _ | _ | _ | _ <;> simp only [add, scaled, mul_add]

lemma scaled_merge (a b : Breakdown K) :
    (a.merge b).scaled c = (a.scaled c).merge (b.scaled c) := by
  simp only [merge, scaled, mul_add]

lemma total_scaled (b : Breakdown K) : (b.scaled c).total = c * b.total := by
  simp only [total, scaled, mul_add]

lemma foldl_merge_scaled (bs : List (Breakdown K)) (b : Breakdown K) :
    (bs.map (scaled c)).foldl merge (b.scaled c) = (bs.foldl merge b).scaled c := by
  induction bs generalizing b with
  | nil => rfl
  | cons b' bs ih => rw [List.map_cons, List.foldl_cons, List.foldl_cons, ← scaled_merge, ih]

end Breakdown

namespace Ledger

lemma sum_map_mul (xs : List K) : (xs.map (c * ·)).sum = c * xs.sum := by
  rw [List.sum_map_mul_left, List.map_id']

lemma totalOf_scaled (groups : List (Group K)) :
    totalOf (groups.map (Group.scaled c)) = c * totalOf groups := by
  rw [totalOf_eq, totalOf_eq, ← sum_map_mul, List.map_map, List.map_map]
  rfl

lemma countOf_scaled (groups : List (Group K)) :
    countOf (groups.map (Group.scaled c)) = countOf groups := by
  rw [countOf_eq_sum, countOf_eq_sum, List.map_map]
  rfl

lemma topWithOthers_scaled (n : ℕ) (groups : List (Group K)) :
    topWithOthers n (groups.map (Group.scaled c)) =
      (topWithOthers n groups).map (Group.scaled c) := by
  have hmerged : ∀ gs : List (Group K),
      merged (gs.map (Group.scaled c)) = (merged gs).scaled c := by
    intro gs
    have hrevenue : Amount.total ((gs.map (Group.scaled c)).map Group.revenue) =
        c * Amount.total (gs.map Group.revenue) := totalOf_scaled gs
    simp only [merged, hrevenue, countOf_scaled, Group.scaled]
  unfold topWithOthers
  rw [List.length_map]
  split
  · rfl
  · rw [← List.map_take, ← List.map_drop, hmerged, List.map_append, List.map_singleton]

/-! ## Collected rows -/

lemma entries_scaled {keys : Row K → List String} (hkeys : ∀ row, keys (row.scaled c) = keys row)
    (rows : List (Row K)) :
    entries (rows.map (Row.scaled c)) keys =
      (entries rows keys).map (Prod.map id (c * ·)) := by
  unfold entries
  rw [List.flatMap_map, List.map_flatMap]
  congr 1
  funext row
  rw [hkeys, Row.amount_scaled, List.map_map]
  rfl

lemma enter_scaled (entry : String × K) (held : Option (K × ℕ)) :
    enter (Prod.map id (c * ·) entry) (held.map (Prod.map (c * ·) id)) =
      Prod.map (c * ·) id (enter entry held) := by
  cases held with
  | none => simp [enter]
  | some v => simp [enter, mul_add]

lemma enterQuarter_scaled (row : Row K) (held : Option (Breakdown K)) :
    enterQuarter (row.scaled c) (held.map (Breakdown.scaled c)) =
      (enterQuarter row held).scaled c := by
  have hheld : (held.map (Breakdown.scaled c)).getD .zero = (held.getD .zero).scaled c := by
    cases held with
    | none => exact Breakdown.scaled_zero.symm
    | some b => rfl
  have hmonth : (row.scaled c).month? = row.month? := rfl
  rw [enterQuarter, enterQuarter, hheld, hmonth, Row.amount_scaled, Breakdown.scaled_add]

lemma enterAmount_scaled (entry : Month × K) (held : Option K) :
    enterAmount (Prod.map id (c * ·) entry) (held.map (c * ·)) = c * enterAmount entry held := by
  cases held with
  | none => simp [enterAmount]
  | some v => simp [enterAmount, mul_add]

lemma dated_scaled (rows : List (Row K)) :
    dated (rows.map (Row.scaled c)) = (dated rows).map (Prod.map id (c * ·)) := by
  unfold dated
  rw [List.filterMap_map, List.map_filterMap]
  congr 1
  funext row
  have hmonth : (row.scaled c).month? = row.month? := rfl
  rw [Function.comp_apply, hmonth, Row.amount_scaled, Option.map_map]
  rfl

/-- Sorting periods does not look at the revenue. -/
lemma sorted_bookPeriod_scaled {κ : Type} [DecidableEq κ] (period : Month → κ)
    (atMost : κ → κ → Bool) (rows : List (Row K)) :
    (((rows.map (Row.scaled c)).foldl (bookPeriod period) []).mergeSort fun a b =>
        atMost a.1 b.1) =
      ((rows.foldl (bookPeriod period) []).mergeSort fun a b => atMost a.1 b.1).map
        (Prod.map id (c * ·)) := by
  have hcollect : (rows.map (Row.scaled c)).foldl (bookPeriod period) [] =
      (rows.foldl (bookPeriod period) []).map (Prod.map id (c * ·)) := by
    rw [foldl_bookPeriod, foldl_bookPeriod, dated_scaled]
    exact Keyed.collect_map (fun _ => rfl) enterAmount_scaled _
  have hsort : ∀ t : List (κ × K), (t.map (Prod.map id (c * ·))).mergeSort
      (fun a b => atMost a.1 b.1) =
      (t.mergeSort fun a b => atMost a.1 b.1).map (Prod.map id (c * ·)) := by
    intro t
    refine (List.map_mergeSort ?_).symm
    intro a _ b _
    rfl
  rw [hcollect, hsort]

theorem monthlyTotals_scaled (rows : List (Row K)) :
    monthlyTotals (rows.map (Row.scaled c)) = (monthlyTotals rows).map (Prod.map id (c * ·)) :=
  sorted_bookPeriod_scaled id Month.atMost rows

theorem calendarQuarters_scaled (rows : List (Row K)) :
    calendarQuarters (rows.map (Row.scaled c)) =
      (calendarQuarters rows).map (Prod.map id (c * ·)) :=
  sorted_bookPeriod_scaled Month.calendarQuarter CalendarQuarter.atMost rows

end Ledger

end Exact

/-! ## Comparisons and quotients -/

namespace Ledger

section Ordered

variable {K : Type} [Field K] [LinearOrder K] [IsStrictOrderedRing K] {c : K} (hc : 0 < c)
include hc

lemma rankedBefore_mul (a b : String × K) :
    rankedBefore (Prod.map id (c * ·) a) (Prod.map id (c * ·) b) = rankedBefore a b := by
  rw [Bool.eq_iff_iff, rankedBefore_iff, rankedBefore_iff]
  simp only [Prod.map_fst, Prod.map_snd, id_eq, mul_lt_mul_iff_right₀ hc,
    mul_right_inj' hc.ne']

/-- A ranking does not look at the unit. -/
lemma rankBy_scaled {β : Type} {figure : β → String × K} {g : β → β}
    (hfigure : ∀ x, figure (g x) = Prod.map id (c * ·) (figure x)) (xs : List β) :
    rankBy figure (xs.map g) = (rankBy figure xs).map g := by
  refine (List.map_mergeSort fun a _ b _ => ?_).symm
  rw [hfigure, hfigure, rankedBefore_mul hc]

theorem groupByKeys_scaled {keys : Row K → List String}
    (hkeys : ∀ row, keys (row.scaled c) = keys row) (rows : List (Row K)) :
    groupByKeys (rows.map (Row.scaled c)) keys =
      (groupByKeys rows keys).map (Group.scaled c) := by
  have hcollect : Keyed.collect Prod.fst enter (entries (rows.map (Row.scaled c)) keys) =
      (Keyed.collect Prod.fst enter (entries rows keys)).map
        (Prod.map id (Prod.map (c * ·) id)) := by
    rw [entries_scaled hkeys]
    exact Keyed.collect_map (fun _ => rfl) enter_scaled _
  have hrank : ∀ gs : List (Group K),
      ranked (gs.map (Group.scaled c)) = (ranked gs).map (Group.scaled c) :=
    rankBy_scaled hc fun _ => rfl
  rw [groupByKeys_eq, groupByKeys_eq, hcollect, ← hrank, List.map_map, List.map_map]
  rfl

theorem quarterlyBy_scaled {field : Row K → Option String}
    (hfield : ∀ row, field (row.scaled c) = field row) (rows : List (Row K)) :
    quarterlyBy (rows.map (Row.scaled c)) field =
      (quarterlyBy rows field).map (QuarterlyGroup.scaled c) := by
  have hcollect : (rows.map (Row.scaled c)).foldl (bookQuarter field) [] =
      (rows.foldl (bookQuarter field) []).map (Prod.map id (Breakdown.scaled c)) := by
    rw [foldl_bookQuarter, foldl_bookQuarter]
    refine Keyed.collect_map ?_ enterQuarter_scaled rows
    intro row
    rw [hfield]
  have hrank : ∀ gs : List (QuarterlyGroup K),
      rankBy (fun g => (g.key, g.revenue)) (gs.map (QuarterlyGroup.scaled c)) =
        (rankBy (fun g => (g.key, g.revenue)) gs).map (QuarterlyGroup.scaled c) :=
    rankBy_scaled hc fun _ => rfl
  unfold quarterlyBy
  rw [hcollect, ← hrank, List.map_map, List.map_map]
  congr 1
  refine List.map_congr_left fun e _ => ?_
  simp [QuarterlyGroup.scaled, Breakdown.total_scaled]

/-- A share is a quotient. -/
lemma sharePct_mul (part whole : K) : sharePct (c * part) (c * whole) = sharePct part whole := by
  rcases lt_or_ge 0 whole with hpos | hneg
  · rw [sharePct_of_pos hpos, sharePct_of_pos (mul_pos hc hpos), mul_div_mul_left _ _ hc.ne']
  · rw [sharePct_of_nonpos hneg,
      sharePct_of_nonpos (mul_nonpos_of_nonneg_of_nonpos hc.le hneg)]

lemma sharable_mul (whole : K) : sharable (c * whole) = sharable whole := by
  rw [Bool.eq_iff_iff, sharable_iff, sharable_iff, mul_pos_iff_of_pos_left hc]

lemma same_zero_mul (x : K) : Amount.same (c * x) Amount.zero = Amount.same x Amount.zero := by
  rw [Bool.eq_iff_iff, Amount.same_iff, Amount.same_iff, Amount.zero_eq, mul_eq_zero,
    or_iff_right hc.ne']

/-- Growth is a quotient. -/
lemma growthPct?_mul (current previous : K) :
    growthPct? (c * current) (c * previous) = growthPct? current previous := by
  unfold growthPct?
  rw [same_zero_mul hc, ← mul_sub, mul_div_mul_left _ _ hc.ne']
  rfl

/-- Concentration is made of quotients. -/
theorem concentration?_scaled (groups : List (Group K)) :
    concentration? (groups.map (Group.scaled c)) = concentration? groups := by
  have hquotients : ((groups.map (Group.scaled c)).map fun g =>
        Amount.square (g.revenue / (c * totalOf groups))) =
      groups.map fun g => Amount.square (g.revenue / totalOf groups) := by
    rw [List.map_map]
    refine List.map_congr_left fun g _ => ?_
    rw [Function.comp_apply, Group.scaled, mul_div_mul_left _ _ hc.ne']
  simp only [concentration?, totalOf_scaled, sharable_mul hc, hquotients]

omit [IsStrictOrderedRing K] in
lemma paretoFrom_scaled (whole before : K) (groups : List (Group K)) :
    paretoFrom (c * whole) (c * before) (groups.map (Group.scaled c)) =
      (paretoFrom whole before groups).map (ParetoPoint.scaled c) := by
  induction groups generalizing before with
  | nil => rfl
  | cons g gs ih =>
    have hcumulative : c * before + (g.scaled c).revenue = c * (before + g.revenue) :=
      (mul_add _ _ _).symm
    rw [List.map_cons, paretoFrom, paretoFrom, hcumulative, ih, List.map_cons]
    simp only [ParetoPoint.scaled, Group.scaled, mul_div_mul_left _ _ hc.ne']

theorem pareto_scaled (groups : List (Group K)) :
    pareto (groups.map (Group.scaled c)) = (pareto groups).map (ParetoPoint.scaled c) := by
  have hzero : (Amount.zero : K) = c * Amount.zero := by simp
  have hcurve : paretoFrom (c * totalOf groups) Amount.zero (groups.map (Group.scaled c)) =
      (paretoFrom (totalOf groups) Amount.zero groups).map (ParetoPoint.scaled c) := by
    rw [hzero, paretoFrom_scaled hc, ← hzero]
  simp only [pareto, totalOf_scaled, sharable_mul hc, hcurve]
  split <;> rfl

lemma monthEntriesFrom_scaled (before : Option K) (monthly : List (Month × K)) :
    monthEntriesFrom (before.map (c * ·)) (monthly.map (Prod.map id (c * ·))) =
      (monthEntriesFrom before monthly).map (MonthEntry.scaled c) := by
  induction monthly generalizing before with
  | nil => rfl
  | cons entry rest ih =>
    have hgrowth : (before.map (c * ·)).bind (growthPct? (c * entry.2)) =
        before.bind (growthPct? entry.2) := by
      cases before with
      | none => rfl
      | some previous => exact growthPct?_mul hc entry.2 previous
    have hrest := ih (some entry.2)
    simp only [List.map_cons, Prod.map_fst, Prod.map_snd, id_eq, monthEntriesFrom, hgrowth]
    exact congrArg (_ :: ·) hrest

/-- Months keep their growth. -/
theorem monthOverMonth_scaled (monthly : List (Month × K)) :
    monthOverMonth (monthly.map (Prod.map id (c * ·))) =
      (monthOverMonth monthly).map (MonthEntry.scaled c) :=
  monthEntriesFrom_scaled hc none monthly

theorem quarterOverQuarter?_scaled (quarters : List (CalendarQuarter × K)) :
    quarterOverQuarter? (quarters.map (Prod.map id (c * ·))) = quarterOverQuarter? quarters := by
  unfold quarterOverQuarter?
  rw [← List.map_reverse]
  rcases quarters.reverse with _ | ⟨latest, _ | ⟨previous, rest⟩⟩
  · rfl
  · rfl
  · exact growthPct?_mul hc latest.2 previous.2

end Ordered

end Ledger

/-! ## Real figures -/

section Real

open Classical in
/-- Among the real numbers the square root is the usual one, which is zero below zero. -/
lemma Amount.sqrt_eq (x : ℝ) : Amount.sqrt x = √x := by
  change (if h : ∃ y : ℝ, 0 ≤ y ∧ y * y = x then h.choose else 0) = √x
  split
  · rename_i h
    obtain ⟨hnonneg, hsquare⟩ := h.choose_spec
    rw [← Real.sqrt_mul_self hnonneg, hsquare]
  · rename_i h
    refine (Real.sqrt_eq_zero_of_nonpos (le_of_not_gt fun hpos => h ?_)).symm
    exact ⟨√x, Real.sqrt_nonneg x, Real.mul_self_sqrt hpos.le⟩

/-- Variation is a quotient. -/
theorem Ledger.variationPct?_mul {c : ℝ} (hc : 0 < c) (values : List ℝ) :
    variationPct? (values.map (c * ·)) = variationPct? values := by
  set n : ℝ := Amount.ofNat values.length with hn
  have hmean : Amount.sum (values.map (c * ·)) / n = c * (Amount.sum values / n) := by
    rw [Amount.sum_eq_sum, Amount.sum_eq_sum, sum_map_mul, mul_div_assoc]
  have hvariance : ∀ mean : ℝ,
      Amount.sum ((values.map (c * ·)).map fun v => Amount.square (v - c * mean)) / n =
        c * c * (Amount.sum (values.map fun v => Amount.square (v - mean)) / n) := by
    intro mean
    rw [Amount.sum_eq_sum, Amount.sum_eq_sum, ← mul_div_assoc, ← sum_map_mul, List.map_map,
      List.map_map]
    congr 2
    refine List.map_congr_left fun v _ => ?_
    simp only [Function.comp_apply, Amount.square]
    ring
  have hroot : ∀ x : ℝ, Amount.sqrt (c * c * x) = c * Amount.sqrt x := by
    intro x
    rw [Amount.sqrt_eq, Amount.sqrt_eq, Real.sqrt_mul (mul_self_nonneg c),
      Real.sqrt_mul_self hc.le]
  simp only [variationPct?, List.isEmpty_map, List.length_map, ← hn, hmean, same_zero_mul hc,
    hvariance, hroot, mul_div_mul_left _ _ hc.ne']

end Real

end RevenueDesk
