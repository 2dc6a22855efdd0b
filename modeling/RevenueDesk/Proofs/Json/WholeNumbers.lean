/-
# Whole numbers beyond the signed type

A whole number that fits the signed type is handed on as it is.  The numbers above are handed on
as doubles, and there the doubles are the multiples of 2048: such a number is taken for the one
that is nearest to it (`TakenFor`), and is kept exactly if it is one of them
(`takenFor_self_iff`).
-/
import Mathlib
import RevenueDesk.Json.Value
import RevenueDesk.Proofs.Number.Conversion

namespace RevenueDesk.JsonNumber

variable {n m : ℤ} {r : ℚ}

/-- The number that a whole number is taken for. -/
def TakenFor (n : ℤ) (r : ℚ) : Prop := if n ≤ largestSigned then r = n else Rounds 2048 n r

lemma takenFor_of_le (h : n ≤ largestSigned) : TakenFor n r ↔ r = n := by
  rw [TakenFor, if_pos h]

lemma takenFor_of_lt (h : largestSigned < n) : TakenFor n r ↔ Rounds 2048 n r := by
  rw [TakenFor, if_neg (not_le.mpr h)]

lemma existsUnique_takenFor (n : ℤ) : ∃! r, TakenFor n r := by
  rcases le_or_gt n largestSigned with h | h
  · simp only [takenFor_of_le h]
    exact existsUnique_eq
  · simp only [takenFor_of_lt h]
    exact existsUnique_rounds 2048 n

/-- Only numbers beyond the signed type are changed, and those that 2048 divides are not. -/
theorem takenFor_self_iff : TakenFor n n ↔ n ≤ largestSigned ∨ 2048 ∣ n := by
  rcases le_or_gt n largestSigned with h | h
  · simp [takenFor_of_le h, h]
  · rw [takenFor_of_lt h, rounds_self_iff (by norm_num), or_iff_right (not_le.mpr h)]
    constructor
    · rintro ⟨k, hk⟩
      exact ⟨k, by rw [mul_comm]; exact_mod_cast hk⟩
    · rintro ⟨k, hk⟩
      exact ⟨k, by rw [hk, mul_comm]; push_cast; rfl⟩

lemma TakenFor.unique {r' : ℚ} (h : TakenFor n r) (h' : TakenFor n r') : r = r' :=
  (existsUnique_takenFor n).unique h h'

/-- Beyond the signed type a number is not taken for one of the signed type. -/
lemma TakenFor.lt_of_lt (h : largestSigned < n) (hr : TakenFor n r) : (largestSigned : ℚ) < r := by
  obtain ⟨k, hk, rfl⟩ := (takenFor_of_lt h).mp hr
  have hn : (2 ^ 63 : ℚ) ≤ n := by
    have : (2 : ℤ) ^ 63 ≤ n := h
    exact_mod_cast this
  have hnear := (abs_le.mp hk.within).2
  -- the first number beyond the signed type is a multiple of 2048 itself
  have hk' : (2 : ℤ) ^ 52 ≤ k := by
    by_contra hlt
    have hle : (k : ℚ) ≤ 2 ^ 52 - 1 := by exact_mod_cast Int.le_sub_one_of_lt (not_le.mp hlt)
    linarith
  have hcast : (2 ^ 52 : ℚ) ≤ k := by exact_mod_cast hk'
  rw [largestSigned]
  push_cast
  linarith

/-- Two numbers are taken for the same one if they are equal, or else both are beyond the signed
type and are rounded alike. -/
lemma takenFor_iff_of_takenFor (hn : TakenFor n r) :
    TakenFor m r ↔
      m = n ∨ largestSigned < m ∧ largestSigned < n ∧ Rounds 2048 m r := by
  constructor
  · intro hm
    rcases le_or_gt m largestSigned with hle | hlt
    · have hr : r = m := (takenFor_of_le hle).mp hm
      rcases le_or_gt n largestSigned with hle' | hlt'
      · have hr' : r = n := (takenFor_of_le hle').mp hn
        exact .inl (by exact_mod_cast hr.symm.trans hr')
      · have := hn.lt_of_lt hlt'
        rw [hr] at this
        exact absurd (by exact_mod_cast this) (not_lt.mpr hle)
    · rcases le_or_gt n largestSigned with hle' | hlt'
      · have := hm.lt_of_lt hlt
        rw [(takenFor_of_le hle').mp hn] at this
        exact absurd (by exact_mod_cast this) (not_lt.mpr hle')
      · exact .inr ⟨hlt, hlt', (takenFor_of_lt hlt).mp hm⟩
  · rintro (rfl | ⟨hlt, -, hrounds⟩)
    · exact hn
    · exact (takenFor_of_lt hlt).mpr hrounds

/-! ## The double that is handed on -/

/-- Beyond the signed type the double is the nearest multiple of 2048. -/
theorem takenFor_toBinary64 (hlo : largestSigned < n) (hhi : n ≤ largestWhole) :
    (toBinary64 (.whole n)).isFinite = true ∧ (toBinary64 (.whole n)).negative = false ∧
      TakenFor n (toBinary64 (.whole n)).value := by
  have hlo' : (2 : ℤ) ^ 63 ≤ n := hlo
  have hhi' : n < (2 : ℤ) ^ 64 := Int.lt_add_one_of_le hhi
  obtain ⟨k, rfl⟩ := Int.eq_ofNat_of_zero_le (show 0 ≤ n by omega)
  have hlog : k.log2 = 63 := (Nat.log2_eq_iff (by omega)).mpr ⟨by omega, by omega⟩
  have hdouble : toBinary64 (.whole k) = .ofNat k := by
    rw [toBinary64, Binary64.ofInt, if_neg (by omega), Int.natAbs_natCast]
  obtain ⟨hfinite, hnegative, hrounds⟩ := Binary64.rounds_ofNat (n := k) (by omega) (by omega)
  rw [hdouble, takenFor_of_lt hlo]
  refine ⟨hfinite, hnegative, ?_⟩
  rw [hlog] at hrounds
  norm_num at hrounds
  exact_mod_cast hrounds

end RevenueDesk.JsonNumber
