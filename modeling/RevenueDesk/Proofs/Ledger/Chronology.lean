/-
# Month after month

The months of rows come in chronological order, each of them once, with the revenue of all rows
that are dated in it (`before_monthlyTotals`, `mem_months`, `revenue_of_mem_monthlyTotals`).  Rows
without a date leave no trace in them (`monthlyTotals_filter`).

The entries that are made of them compare each month with the one before it
(`isChain_monthOverMonth`).  They are shown by the texts of their months, which tell any two
months apart (`Month.text_injective`).
-/
import Mathlib.Data.List.Basic
import Mathlib.Tactic.FieldSimp
import RevenueDesk.Proofs.Ledger.Periods
import RevenueDesk.Proofs.Ledger.Sorting

namespace RevenueDesk

namespace Month

/-! ## Texts of months -/

section Padded

variable {width n : ℕ} {c : Char}

lemma toList_padded (width n : ℕ) : (padded width n).toList =
    List.replicate (width - (toString n).length) '0' ++ Nat.toDigits 10 n := by
  rw [padded, String.toList_append, String.toList_ofList, Nat.toString_eq_repr, Nat.toList_repr]

lemma isDigit_of_mem_padded (hc : c ∈ (padded width n).toList) : c.isDigit = true := by
  rw [toList_padded] at hc
  rcases List.mem_append.mp hc with hzero | hdigit
  · rw [List.eq_of_mem_replicate hzero]
    decide
  · exact Nat.isDigit_of_mem_toDigits (by decide) (by decide) hdigit

/-- Zeros at the front do not change what is read from a numeral. -/
lemma ofDigitChars_padded (width n : ℕ) : Nat.ofDigitChars 10 (padded width n).toList 0 = n := by
  rw [toList_padded, Nat.ofDigitChars_append, Nat.ofDigitChars_replicate_zero, Nat.mul_zero,
    Nat.ofDigitChars_ten_toDigits]

lemma padded_injective (width : ℕ) : Function.Injective (padded width) := by
  intro m n h
  rw [← ofDigitChars_padded width m, h, ofDigitChars_padded]

end Padded

/-- The sign of a year. -/
def sign (year : ℤ) : List Char := if year < 0 then ['-'] else if 9999 < year then ['+'] else []

lemma toList_text (m : Month) : m.text.toList =
    sign m.year ++ ((padded 4 m.year.natAbs).toList ++ '-' :: (padded 2 m.number).toList) := by
  unfold text sign
  split_ifs <;> simp

lemma isDigit_of_mem_sign {y : ℤ} {c : Char} (hc : c ∈ sign y) : c.isDigit = false := by
  unfold sign at hc
  split_ifs at hc
  · rw [List.mem_singleton.mp hc]
    decide
  · rw [List.mem_singleton.mp hc]
    decide
  · exact absurd hc List.not_mem_nil

/-- The sign of a year is what stands before its first digit. -/
lemma takeWhile_sign_append (y : ℤ) (width n : ℕ) (cs : List Char) :
    (sign y ++ ((padded width n).toList ++ cs)).takeWhile (fun c => !c.isDigit) = sign y := by
  have hnumeral : (padded width n).toList ≠ [] := by
    rw [toList_padded]
    exact List.append_ne_nil_of_right_ne_nil _ Nat.toDigits_ne_nil
  obtain ⟨d, ds, hd⟩ := List.exists_cons_of_ne_nil hnumeral
  have hdigit : d.isDigit = true := isDigit_of_mem_padded (hd ▸ List.mem_cons_self)
  rw [List.takeWhile_append_of_pos fun c hc => by simp [isDigit_of_mem_sign hc], hd,
    List.cons_append, List.takeWhile_cons_of_neg (by simp [hdigit]), List.append_nil]

lemma eq_of_sign_eq {y y' : ℤ} (hsign : sign y = sign y') (habs : y.natAbs = y'.natAbs) :
    y = y' := by
  unfold sign at hsign
  split_ifs at hsign <;> simp at hsign <;> omega

/-- The text of a month tells it from all others, whatever the year is. -/
theorem text_injective : Function.Injective text := by
  intro a b h
  have hlists := congrArg String.toList h
  rw [toList_text, toList_text] at hlists
  have hsign : sign a.year = sign b.year := by
    rw [← takeWhile_sign_append a.year, hlists, takeWhile_sign_append]
  rw [hsign] at hlists
  have hdash : ∀ width n, '-' ∉ (padded width n).toList :=
    fun _ _ hmem => absurd (isDigit_of_mem_padded hmem) (by decide)
  obtain ⟨hyear, -, hnumber⟩ := (List.append_cons_inj_of_notMem (hdash _ _) (hdash _ _)).mp
    (List.append_cancel_left hlists)
  have habs : a.year.natAbs = b.year.natAbs := padded_injective 4 (String.toList_inj.mp hyear)
  have hnumber : a.number = b.number := padded_injective 2 (String.toList_inj.mp hnumber)
  cases a
  cases b
  exact congrArg₂ mk (eq_of_sign_eq hsign habs) hnumber

/-! ## Time -/

/-- A month comes before another one. -/
def Before (a b : Month) : Prop := a.year < b.year ∨ a.year = b.year ∧ a.number < b.number

lemma Before.ne {a b : Month} (h : a.Before b) : a ≠ b := by
  rintro rfl
  unfold Before at h
  omega

lemma Before.atMost {a b : Month} (h : a.Before b) : a.atMost b = true :=
  chronological.iff.mpr (h.imp_right fun ⟨hyear, hnumber⟩ => ⟨hyear, hnumber.le⟩)

end Month

namespace Ledger

variable {α : Type} [Amount α] {K : Type} [Field K] [LinearOrder K]

/-! ## The months of rows -/

/-- The months are those that rows are dated in. -/
theorem mem_months {rows : List (Row K)} {month : Month} :
    month ∈ (monthlyTotals rows).map Prod.fst ↔ ∃ row ∈ rows, row.month? = some month := by
  rw [((monthlyTotals_perm rows).map Prod.fst).mem_iff, Keyed.mem_keys_collect]
  simp [dated]

/-- They come in chronological order, each of them once. -/
theorem before_monthlyTotals (rows : List (Row K)) :
    (monthlyTotals rows).Pairwise fun a b => a.1.Before b.1 :=
  pairwise_sorted_bookPeriod id Month.chronological rows

/-- The dated amounts of a month are those of its rows. -/
lemma map_filter_dated (rows : List (Row α)) (month : Month) :
    ((dated rows).filter fun e => e.1 = month).map Prod.snd =
      (rows.filter fun row => row.month? = some month).map Row.amount := by
  induction rows with
  | nil => rfl
  | cons row rows ih =>
    cases hmonth : row.month? with
    | none => simpa [dated, hmonth] using ih
    | some own =>
      by_cases hown : own = month
      · simpa [dated, hmonth, hown] using ih
      · simpa [dated, hmonth, hown] using ih

/-- A month has the revenue of all of its rows. -/
theorem revenue_of_mem_monthlyTotals {rows : List (Row K)} {e : Month × K}
    (he : e ∈ monthlyTotals rows) :
    e.2 = ((rows.filter fun row => row.month? = some e.1).map Row.amount).sum := by
  have hmonth : e.2 = _ :=
    Keyed.measure_of_mem_collect addsShare_amount ((monthlyTotals_perm rows).mem_iff.mp he)
  rw [hmonth, map_filter_dated]

/-- Rows without a date leave no trace. -/
theorem monthlyTotals_filter (rows : List (Row α)) :
    monthlyTotals (rows.filter fun row => row.month.isSome) = monthlyTotals rows := by
  have hdated : dated (rows.filter fun row => row.month.isSome) = dated rows := by
    unfold dated
    rw [List.filterMap_filter]
    refine List.filterMap_congr fun row _ => ?_
    cases hmonth : row.month <;> simp [Row.month?, hmonth]
  rw [monthlyTotals, foldl_bookPeriod, hdated, ← foldl_bookPeriod, ← monthlyTotals]

/-! ## Entries -/

/-- There is an entry for each month, with its revenue. -/
lemma map_monthEntriesFrom (before : Option α) (monthly : List (Month × α)) :
    (monthEntriesFrom before monthly).map (fun m => (m.month, m.revenue)) = monthly := by
  induction monthly generalizing before with
  | nil => rfl
  | cons e rest ih => exact congrArg (e :: ·) (ih (some e.2))

/-- The first of them has nothing to be compared with. -/
lemma growth_of_head_monthOverMonth {monthly : List (Month × α)} {m : MonthEntry α}
    (h : (monthOverMonth monthly).head? = some m) : m.growth = none := by
  cases monthly with
  | nil => exact absurd h (by simp [monthOverMonth, monthEntriesFrom])
  | cons e rest =>
    obtain rfl := Option.some.inj h
    rfl

/-- The growth of `b` is unknown if there was no revenue in `a`, and otherwise leads from the
revenue of `a` to that of `b`. -/
structure GrowsFrom (a b : MonthEntry K) : Prop where
  unknown : b.growth = none ↔ a.revenue = 0
  leads : ∀ growth, b.growth = some growth → b.revenue = a.revenue * (1 + growth / 100)

lemma growthPct?_eq_none_iff {current previous : K} :
    growthPct? current previous = none ↔ previous = 0 := by
  simp [growthPct?, Amount.same_iff]

variable [CharZero K]

lemma eq_mul_of_growthPct? {current previous growth : K}
    (h : growthPct? current previous = some growth) :
    current = previous * (1 + growth / 100) := by
  have hne : previous ≠ 0 := fun hzero => by
    simp [growthPct?_eq_none_iff.mpr hzero] at h
  have hgrowth : (current - previous) / previous * 100 = growth := by
    simpa [growthPct?, Amount.same_iff, hne] using h
  rw [← hgrowth]
  field_simp
  ring

/-- Every entry that follows another one grows from it. -/
theorem isChain_monthEntriesFrom (a : MonthEntry K) (monthly : List (Month × K)) :
    (a :: monthEntriesFrom (some a.revenue) monthly).IsChain GrowsFrom := by
  induction monthly generalizing a with
  | nil => exact List.IsChain.singleton a
  | cons e rest ih =>
    refine List.IsChain.cons_cons ⟨?_, ?_⟩ (ih ⟨e.1, e.2, growthPct? e.2 a.revenue⟩)
    · exact growthPct?_eq_none_iff
    · exact fun growth hgrowth => eq_mul_of_growthPct? hgrowth

theorem isChain_monthOverMonth (monthly : List (Month × K)) :
    (monthOverMonth monthly).IsChain GrowsFrom := by
  cases monthly with
  | nil => exact List.IsChain.nil
  | cons e rest => exact isChain_monthEntriesFrom ⟨e.1, e.2, none⟩ rest

end Ledger

end RevenueDesk
