/-
# Rounding to the nearest number

A number is rounded to the whole number that is nearest to it, and to the even one if there are
two (`Nearest`).  There is exactly one (`existsUnique_nearest`), and for a quotient it is the one
that division with remainder finds (`nearest_roundDiv`).

To round to decimal places, or to the grid on which the doubles of some size lie, is to round to
the multiples of a unit (`Rounds`).
-/
import Mathlib.Algebra.Order.Field.Rat
import Mathlib.Algebra.Order.Round
import Mathlib.Tactic.FieldSimp
import Mathlib.Tactic.Linarith
import Mathlib.Tactic.NormNum
import Mathlib.Tactic.Positivity
import RevenueDesk.Number.Digits

namespace RevenueDesk

/-- `k` is the whole number nearest to `v`, the even one if there are two. -/
structure Nearest (v : ℚ) (k : ℤ) : Prop where
  within : |v - k| ≤ 1 / 2
  even_of_tie : |v - k| = 1 / 2 → Even k

/-- `r` is the multiple of a unit that is nearest to `v`, the even multiple if there are two. -/
def Rounds (unit v r : ℚ) : Prop := ∃ k : ℤ, Nearest (v / unit) k ∧ r = k * unit

variable {v : ℚ} {k : ℤ}

/-! ## Whole numbers -/

lemma nearest_of_lt (h : |v - k| < 1 / 2) : Nearest v k := ⟨h.le, fun htie => absurd htie h.ne⟩

lemma nearest_intCast (k : ℤ) : Nearest k k := nearest_of_lt (by simp)

lemma Nearest.neg (h : Nearest v k) : Nearest (-v) (-k) := by
  have hdistance : |-v - ((-k : ℤ) : ℚ)| = |v - k| := by
    rw [Int.cast_neg, sub_neg_eq_add, neg_add_eq_sub, abs_sub_comm]
  constructor
  · rw [hdistance]
    exact h.within
  · rw [hdistance]
    exact fun htie => (h.even_of_tie htie).neg

lemma Nearest.unique {k' : ℤ} (h : Nearest v k) (h' : Nearest v k') : k = k' := by
  have hk := abs_le.mp h.within
  have hk' := abs_le.mp h'.within
  by_contra hne
  -- two numbers as near as that lie half a unit below and above
  wlog hlt : k < k' generalizing k k'
  · exact this h' h hk' hk (Ne.symm hne) (by omega)
  have hle : (k : ℚ) + 1 ≤ k' := by exact_mod_cast hlt
  have hbelow : v - k = 1 / 2 := by linarith
  have habove : v - k' = -(1 / 2) := by linarith
  have hstep : k' = k + 1 := by
    have hcast : (k' : ℚ) = ((k + 1 : ℤ) : ℚ) := by push_cast; linarith
    exact_mod_cast hcast
  have heven : Even k := h.even_of_tie (by rw [hbelow]; norm_num)
  have heven' : Even k' := h'.even_of_tie (by rw [habove]; norm_num)
  rw [hstep, Int.even_add_one] at heven'
  exact heven' heven

/-- A number is rounded down to its whole part as long as less than a half is left over. -/
lemma nearest_below {part : ℚ} (hnonneg : 0 ≤ part) (h : part < 1 / 2 ∨ part = 1 / 2 ∧ Even k) :
    Nearest (k + part) k := by
  rcases h with hlt | ⟨rfl, heven⟩
  · refine nearest_of_lt ?_
    rwa [add_sub_cancel_left, abs_of_nonneg hnonneg]
  · exact ⟨by rw [add_sub_cancel_left, abs_of_nonneg hnonneg], fun _ => heven⟩

/-- It is rounded up from a half on. -/
lemma nearest_above {part : ℚ} (hlt : part < 1)
    (h : 1 / 2 < part ∨ part = 1 / 2 ∧ ¬ Even k) : Nearest (k + part) (k + 1) := by
  have hdistance : |(k : ℚ) + part - ((k + 1 : ℤ) : ℚ)| = 1 - part := by
    rw [Int.cast_add, Int.cast_one, add_sub_add_left_eq_sub, abs_sub_comm]
    exact abs_of_pos (sub_pos.mpr hlt)
  rcases h with hgt | ⟨rfl, hodd⟩
  · refine nearest_of_lt ?_
    rw [hdistance]
    linarith
  · exact ⟨by rw [hdistance]; norm_num, fun _ => Int.even_add_one.mpr hodd⟩

/-- Division with remainder finds the whole number that is nearest to a quotient. -/
theorem nearest_roundDiv (num : ℕ) {den : ℕ} (hden : 0 < den) :
    Nearest ((num : ℚ) / den) (Digits.roundDiv num den : ℕ) := by
  have hpos : (0 : ℚ) < den := by exact_mod_cast hden
  have hquotient : (num : ℚ) / den = ((num / den : ℕ) : ℤ) + ((num % den : ℕ) : ℚ) / den := by
    have hnum : (den : ℚ) * (num / den : ℕ) + (num % den : ℕ) = num := by
      exact_mod_cast Nat.div_add_mod num den
    rw [Int.cast_natCast]
    field_simp
    linarith
  have hnonneg : 0 ≤ ((num % den : ℕ) : ℚ) / den := by positivity
  have hlt : ((num % den : ℕ) : ℚ) / den < 1 := by
    rw [div_lt_one hpos]
    exact_mod_cast Nat.mod_lt num hden
  -- what is left over is compared with a half by doubling the remainder
  have hbelow : 2 * (num % den) < den ↔ ((num % den : ℕ) : ℚ) / den < 1 / 2 := by
    rw [div_lt_div_iff₀ hpos two_pos, one_mul, mul_comm]
    exact_mod_cast Iff.rfl
  have habove : den < 2 * (num % den) ↔ 1 / 2 < ((num % den : ℕ) : ℚ) / den := by
    rw [div_lt_div_iff₀ two_pos hpos, one_mul, mul_comm _ (2 : ℚ)]
    exact_mod_cast Iff.rfl
  have htie (h : ¬ 2 * (num % den) < den) (h' : ¬ den < 2 * (num % den)) :
      ((num % den : ℕ) : ℚ) / den = 1 / 2 :=
    le_antisymm (not_lt.mp (mt habove.mpr h')) (not_lt.mp (mt hbelow.mpr h))
  have heven : Even ((num / den : ℕ) : ℤ) ↔ num / den % 2 = 0 := by
    rw [Int.even_coe_nat, Nat.even_iff]
  rw [hquotient, Digits.roundDiv]
  split
  · rename_i hr
    exact nearest_below hnonneg (.inl (hbelow.mp hr))
  · rename_i hr
    split
    · rename_i hr'
      exact nearest_above hlt (.inl (habove.mp hr'))
    · rename_i hr'
      split
      · rename_i hq
        exact nearest_below hnonneg (.inr ⟨htie hr hr', heven.mpr hq⟩)
      · rename_i hq
        exact nearest_above hlt (.inr ⟨htie hr hr', mt heven.mp hq⟩)

/-- There is exactly one number to round to. -/
theorem existsUnique_nearest (v : ℚ) : ∃! k : ℤ, Nearest v k := by
  have hexists : ∃ k : ℤ, Nearest |v| k := by
    have hquotient : |v| = (|v|.num.natAbs : ℚ) / |v|.den := by
      have hnum : (|v|.num.natAbs : ℤ) = |v|.num :=
        Int.natAbs_of_nonneg (Rat.num_nonneg.mpr (abs_nonneg v))
      rw [← Int.cast_natCast, hnum, Rat.num_div_den]
    rw [hquotient]
    exact ⟨_, nearest_roundDiv _ |v|.den_pos⟩
  obtain ⟨k, hk⟩ := hexists
  rcases abs_choice v with habs | habs
  · exact ⟨k, habs ▸ hk, fun _ h => h.unique (habs ▸ hk)⟩
  · have hneg : Nearest v (-k) := by
      have := hk.neg
      rwa [habs, neg_neg] at this
    exact ⟨-k, hneg, fun _ h => h.unique hneg⟩

/-! ## Multiples of a unit -/

theorem existsUnique_rounds (unit v : ℚ) : ∃! r, Rounds unit v r := by
  obtain ⟨k, hk, hunique⟩ := existsUnique_nearest (v / unit)
  refine ⟨k * unit, ⟨k, hk, rfl⟩, ?_⟩
  rintro _ ⟨k', hk', rfl⟩
  rw [hunique k' hk']

/-- A multiple of the unit is what it is rounded to, and it alone. -/
lemma rounds_self_iff {unit : ℚ} (hunit : unit ≠ 0) : Rounds unit v v ↔ ∃ k : ℤ, v = k * unit := by
  constructor
  · rintro ⟨k, -, hv⟩
    exact ⟨k, hv⟩
  · rintro ⟨k, rfl⟩
    refine ⟨k, ?_, rfl⟩
    rw [mul_div_cancel_right₀ _ hunit]
    exact nearest_intCast k

end RevenueDesk
