/-
# The direction of growth

Growth is meant to say in which direction revenue went.  It is taken in percent of the earlier
amount, and behind a positive amount it has the sign of the change.  The earlier amount may be
negative, however, when refunds outweigh the revenue, and then the sign is turned round: a loss
that becomes smaller shows as a decline, and one that becomes larger shows as growth.

* `TurnsWithBase.tellsDirection_iff`: growth tells the direction if the earlier amount is positive
  or if nothing changes;
* `growthDirection`: so it is between neighbouring months, and between the last two quarters;
* `isChain_directed_of_nonneg`, `tellsDirection_of_nonneg`: without negative revenues growth always
  tells the direction.
-/
import Mathlib.Algebra.Order.BigOperators.Group.List
import Mathlib.Data.List.Chain
import Mathlib.Tactic.NormNum
import RevenueDesk.Proofs.Ledger.Chronology
import RevenueDesk.Proofs.Ledger.Regrouping

namespace RevenueDesk.Ledger

variable {K : Type} [Field K] [LinearOrder K] {growth earlier later : K}

/-! ## From one amount to the next -/

/-- The sign of `growth` is the direction from the earlier amount to the later one. -/
structure TellsDirection (growth earlier later : K) : Prop where
  pos_iff : 0 < growth ↔ earlier < later
  neg_iff : growth < 0 ↔ later < earlier
  zero_iff : growth = 0 ↔ later = earlier

/-- The sign of `growth` is the direction behind a positive amount, and the opposite direction
behind a negative one. -/
def TurnsWithBase (growth earlier later : K) : Prop :=
  0 < earlier ∧ TellsDirection growth earlier later ∨
    earlier < 0 ∧ TellsDirection growth later earlier

/-- If growth tells a direction and the opposite one, nothing changes. -/
lemma TellsDirection.eq_of_symm (h : TellsDirection growth earlier later)
    (h' : TellsDirection growth later earlier) : later = earlier := by
  rcases lt_trichotomy growth 0 with hneg | hzero | hpos
  · exact absurd (h.neg_iff.mp hneg) (h'.neg_iff.mp hneg).not_gt
  · exact h.zero_iff.mp hzero
  · exact absurd (h.pos_iff.mp hpos) (h'.pos_iff.mp hpos).not_gt

theorem TurnsWithBase.tellsDirection_iff (h : TurnsWithBase growth earlier later) :
    TellsDirection growth earlier later ↔ 0 < earlier ∨ later = earlier := by
  rcases h with ⟨hpos, htells⟩ | ⟨hneg, hopposite⟩
  · exact iff_of_true htells (.inl hpos)
  · rw [or_iff_right hneg.not_gt]
    constructor
    · exact fun htells => htells.eq_of_symm hopposite
    · rintro rfl
      exact hopposite

section Leads

variable [IsStrictOrderedRing K] (h : later = earlier * (1 + growth / 100))
include h

lemma tellsDirection_of_pos (hpos : 0 < earlier) : TellsDirection growth earlier later := by
  have hunit : 0 < earlier / 100 := div_pos hpos (by norm_num)
  have hchange : later - earlier = earlier / 100 * growth := by
    rw [h]
    ring
  refine ⟨?_, ?_, ?_⟩
  · rw [← sub_pos (a := later), hchange, mul_pos_iff_of_pos_left hunit]
  · rw [← sub_neg (a := later), hchange, mul_neg_iff, or_iff_left fun hneg => hneg.1.not_gt hunit,
      and_iff_right hunit]
  · rw [← sub_eq_zero (a := later), hchange, mul_eq_zero, or_iff_right hunit.ne']

/-- A negative amount and what follows it are seen in a mirror. -/
lemma tellsDirection_of_neg (hneg : earlier < 0) : TellsDirection growth later earlier := by
  have hmirror : TellsDirection growth (-earlier) (-later) :=
    tellsDirection_of_pos (by rw [h, neg_mul]) (neg_pos.mpr hneg)
  refine ⟨?_, ?_, ?_⟩
  · rw [hmirror.pos_iff, neg_lt_neg_iff]
  · rw [hmirror.neg_iff, neg_lt_neg_iff]
  · rw [hmirror.zero_iff, neg_inj, eq_comm]

lemma turnsWithBase_of_ne (hne : earlier ≠ 0) : TurnsWithBase growth earlier later := by
  rcases hne.lt_or_gt with hneg | hpos
  · exact .inr ⟨hneg, tellsDirection_of_neg h hneg⟩
  · exact .inl ⟨hpos, tellsDirection_of_pos h hpos⟩

end Leads

/-- So does the growth that is shown. -/
lemma turnsWithBase_of_growthPct? [IsStrictOrderedRing K]
    (h : growthPct? later earlier = some growth) : TurnsWithBase growth earlier later := by
  refine turnsWithBase_of_ne (eq_mul_of_growthPct? h) fun hzero => ?_
  simp [growthPct?_eq_none_iff.mpr hzero] at h

/-! ## Months -/

/-- The growth of `b`, where it is known, tells the direction from `a` to `b`. -/
def Directed (a b : MonthEntry K) : Prop :=
  ∀ growth, b.growth = some growth → TellsDirection growth a.revenue b.revenue

/-- The growth of `b` is known if `a` has any revenue, and turns with it. -/
structure Turning (a b : MonthEntry K) : Prop where
  unknown : b.growth = none ↔ a.revenue = 0
  turns : ∀ growth, b.growth = some growth → TurnsWithBase growth a.revenue b.revenue

lemma Turning.directed_iff {a b : MonthEntry K} (h : Turning a b) :
    Directed a b ↔ 0 ≤ a.revenue ∨ b.revenue = a.revenue := by
  cases hgrowth : b.growth with
  | none => simp [Directed, hgrowth, h.unknown.mp hgrowth]
  | some growth =>
    have hne : a.revenue ≠ 0 := fun hzero => by
      simp [h.unknown.mpr hzero] at hgrowth
    simp only [Directed, hgrowth, Option.some_inj, forall_eq']
    rw [(h.turns growth hgrowth).tellsDirection_iff, le_iff_lt_or_eq, or_iff_left hne.symm]

section Series

variable [IsStrictOrderedRing K] (monthly : List (Month × K))

lemma isChain_turning : (monthOverMonth monthly).IsChain Turning := by
  refine (isChain_monthOverMonth monthly).imp fun a b h => ⟨h.unknown, fun growth hgrowth => ?_⟩
  refine turnsWithBase_of_ne (h.leads growth hgrowth) fun hzero => ?_
  simp [h.unknown.mpr hzero] at hgrowth

/-- The growth of all months tells the direction if no month behind which revenue changes is
negative. -/
theorem isChain_directed_iff : (monthOverMonth monthly).IsChain Directed ↔
    monthly.IsChain fun a b => 0 ≤ a.2 ∨ b.2 = a.2 := by
  have hturning := isChain_turning monthly
  have hfigures := map_monthEntriesFrom none monthly
  rw [← monthOverMonth] at hfigures
  conv_rhs => rw [← hfigures, List.isChain_map]
  rw [List.isChain_iff_forall_rel_of_append_cons_cons] at hturning ⊢
  rw [List.isChain_iff_forall_rel_of_append_cons_cons]
  constructor
  · exact fun h _ _ _ _ hsplit => (hturning hsplit).directed_iff.mp (h hsplit)
  · exact fun h _ _ _ _ hsplit => (hturning hsplit).directed_iff.mpr (h hsplit)

end Series

/-! ## Quarters -/

lemma quarterOverQuarter?_append (front : List (CalendarQuarter × K))
    (previous latest : CalendarQuarter × K) :
    quarterOverQuarter? (front ++ [previous, latest]) = growthPct? latest.2 previous.2 := by
  simp [quarterOverQuarter?]

/-- Growth is that of the last quarter over the one before it. -/
lemma quarterOverQuarter?_eq_some_iff {quarters : List (CalendarQuarter × K)} :
    quarterOverQuarter? quarters = some growth ↔
      ∃ front previous latest, quarters = front ++ [previous, latest] ∧
        growthPct? latest.2 previous.2 = some growth := by
  constructor
  · intro h
    unfold quarterOverQuarter? at h
    split at h
    · rename_i latest previous front hreverse
      refine ⟨front.reverse, previous, latest, ?_, h⟩
      rw [← List.reverse_reverse quarters, hreverse]
      simp
    · simp at h
  · rintro ⟨front, previous, latest, rfl, h⟩
    rwa [quarterOverQuarter?_append]

/-! ## Both series -/

/-- What growth says about the direction. -/
structure GrowthDirection (monthly : List (Month × K)) (quarters : List (CalendarQuarter × K)) :
    Prop where
  /-- Behind a positive month growth tells the direction, behind a negative one the opposite. -/
  turning : (monthOverMonth monthly).IsChain Turning
  /-- So it tells the direction everywhere if no month behind which revenue changes is negative. -/
  directed_iff : (monthOverMonth monthly).IsChain Directed ↔
    monthly.IsChain fun a b => 0 ≤ a.2 ∨ b.2 = a.2
  /-- The last quarter has growth if there is one before it that has any revenue. -/
  latestKnown_iff : (∃ growth, quarterOverQuarter? quarters = some growth) ↔
    ∃ front previous latest, quarters = front ++ [previous, latest] ∧ previous.2 ≠ 0
  /-- Behind a positive quarter it tells the direction, behind a negative one the opposite. -/
  latestTurns : ∀ front previous latest growth, quarters = front ++ [previous, latest] →
    quarterOverQuarter? quarters = some growth → TurnsWithBase growth previous.2 latest.2
  /-- So it tells the direction if that quarter is positive or nothing changes. -/
  latestDirected_iff : ∀ front previous latest growth, quarters = front ++ [previous, latest] →
    quarterOverQuarter? quarters = some growth →
      (TellsDirection growth previous.2 latest.2 ↔ 0 < previous.2 ∨ latest.2 = previous.2)

/-- Growth tells the direction, or the opposite one if the amount that it is taken of is
negative. -/
theorem growthDirection (monthly : List (Month × ℚ)) (quarters : List (CalendarQuarter × ℚ)) :
    GrowthDirection monthly quarters := by
  have hturns : ∀ front previous latest growth, quarters = front ++ [previous, latest] →
      quarterOverQuarter? quarters = some growth → TurnsWithBase growth previous.2 latest.2 := by
    rintro front previous latest growth rfl hgrowth
    rw [quarterOverQuarter?_append] at hgrowth
    exact turnsWithBase_of_growthPct? hgrowth
  refine ⟨isChain_turning monthly, isChain_directed_iff monthly, ?_, hturns, ?_⟩
  · simp only [quarterOverQuarter?_eq_some_iff]
    constructor
    · rintro ⟨growth, front, previous, latest, hsplit, hgrowth⟩
      refine ⟨front, previous, latest, hsplit, fun hzero => ?_⟩
      simp [growthPct?_eq_none_iff.mpr hzero] at hgrowth
    · rintro ⟨front, previous, latest, hsplit, hne⟩
      obtain ⟨growth, hgrowth⟩ := Option.ne_none_iff_exists'.mp (mt growthPct?_eq_none_iff.mp hne)
      exact ⟨growth, front, previous, latest, hsplit, hgrowth⟩
  · exact fun front previous latest growth hsplit hgrowth =>
      (hturns front previous latest growth hsplit hgrowth).tellsDirection_iff

/-- A loss of one hundred followed by one of fifty shows as a decline, by months and by
quarters. -/
theorem growth_not_directed :
    (¬ ∀ monthly : List (Month × ℚ), (monthOverMonth monthly).IsChain Directed) ∧
      ¬ ∀ (quarters front : List (CalendarQuarter × ℚ)) previous latest growth,
        quarters = front ++ [previous, latest] → quarterOverQuarter? quarters = some growth →
          TellsDirection growth previous.2 latest.2 := by
  constructor
  · intro h
    have hmonths := (isChain_directed_iff _).mp (h [(⟨2025, 1⟩, -100), (⟨2025, 2⟩, -50)])
    norm_num at hmonths
  · intro h
    have hgrowth : quarterOverQuarter?
        [((⟨2025, .q1⟩ : CalendarQuarter), (-100 : ℚ)), (⟨2025, .q2⟩, -50)] = some (-50) := by
      norm_num [quarterOverQuarter?, growthPct?, Amount.same_iff]
    have hdirection := h _ [] (⟨2025, .q1⟩, -100) (⟨2025, .q2⟩, -50) _ rfl hgrowth
    have hdecline := hdirection.neg_iff.mp (by norm_num)
    norm_num at hdecline

/-! ## Rows without refunds -/

section Rows

variable [IsStrictOrderedRing K] {rows : List (Row K)} (h : ∀ row ∈ rows, 0 ≤ row.amount)
include h

lemma nonneg_of_mem_monthlyTotals {e : Month × K} (he : e ∈ monthlyTotals rows) : 0 ≤ e.2 := by
  rw [revenue_of_mem_monthlyTotals he]
  refine List.sum_nonneg fun x hx => ?_
  obtain ⟨row, hrow, rfl⟩ := List.mem_map.mp hx
  exact h row (List.mem_of_mem_filter hrow)

lemma nonneg_of_mem_calendarQuarters {e : CalendarQuarter × K}
    (he : e ∈ calendarQuarters rows) : 0 ≤ e.2 := by
  rw [total_months_of_mem_calendarQuarters he, Amount.total_eq_sum]
  refine List.sum_nonneg fun x hx => ?_
  obtain ⟨m, hm, rfl⟩ := List.mem_map.mp hx
  exact nonneg_of_mem_monthlyTotals h (List.mem_of_mem_filter hm)

/-- Without negative revenues the growth of every month tells the direction. -/
theorem isChain_directed_of_nonneg : (monthOverMonth (monthlyTotals rows)).IsChain Directed := by
  rw [isChain_directed_iff, List.isChain_iff_forall_rel_of_append_cons_cons]
  intro a b front behind hsplit
  exact .inl (nonneg_of_mem_monthlyTotals h (by simp [hsplit]))

/-- So does the growth of the last quarter. -/
theorem tellsDirection_of_nonneg {front : List (CalendarQuarter × K)}
    {previous latest : CalendarQuarter × K}
    (hsplit : calendarQuarters rows = front ++ [previous, latest])
    (hgrowth : quarterOverQuarter? (calendarQuarters rows) = some growth) :
    TellsDirection growth previous.2 latest.2 := by
  have hprevious : 0 ≤ previous.2 := nonneg_of_mem_calendarQuarters h (by simp [hsplit])
  rw [hsplit, quarterOverQuarter?_append] at hgrowth
  rcases turnsWithBase_of_growthPct? hgrowth with ⟨-, htells⟩ | ⟨hneg, -⟩
  · exact htells
  · exact absurd hprevious hneg.not_ge

end Rows

end RevenueDesk.Ledger
