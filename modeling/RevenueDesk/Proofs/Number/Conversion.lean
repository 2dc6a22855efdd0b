/-
# The double of a whole number

From `2 ^ 53` on a whole number has more bits than the significand of a double.  The doubles
between two powers of two are the multiples of a unit there, and the number becomes the nearest
multiple, the even one if there are two (`rounds_ofNat`).  From `2 ^ 63` to `2 ^ 64` the unit is
2048.

The conversion shifts the number to the right until it has 53 bits.  What it drops is kept in two
bits, which suffice to round what is left (`Approximates`).
-/
import Mathlib
import RevenueDesk.Proofs.Ledger.Exact
import RevenueDesk.Proofs.Number.Rounding

namespace RevenueDesk.Binary64

open Float.Model (Format UnpackedFloat totalExponent)
open Float.Model.UnpackedFloat

/-! ## Shifting to the right -/

/-- What a mantissa and its two residual bits say about a quotient: its whole part, and how what
is left over compares with a half. -/
structure Approximates (em : ExtendedMantissa) (num den : ℕ) : Prop where
  mantissa_eq : em.mantissa = num / den
  roundBit_iff : em.roundBit = true ↔ den ≤ 2 * (num % den)
  stickyBit_iff : em.stickyBit = true ↔ num % den ≠ 0 ∧ 2 * (num % den) ≠ den

section Shifting

variable {em : ExtendedMantissa} {num den : ℕ}

lemma approximates_exact (m : ℕ) :
    Approximates (.ofMantissaAndAccuracy m .exact) m 1 where
  mantissa_eq := (Nat.div_one m).symm
  roundBit_iff := by simp [ExtendedMantissa.ofMantissaAndAccuracy, Nat.mod_one]
  stickyBit_iff := by simp [ExtendedMantissa.ofMantissaAndAccuracy, Nat.mod_one]

lemma Approximates.shiftRightOne (hden : 0 < den) (h : Approximates em num den) :
    Approximates em.shiftRightOne num (den * 2) := by
  have hremainder : num % (den * 2) = num % den + den * (num / den % 2) := Nat.mod_mul
  have hlt : num % den < den := Nat.mod_lt num hden
  have hbit : num / den % 2 = 0 ∨ num / den % 2 = 1 := Nat.mod_two_eq_zero_or_one _
  refine ⟨?_, ?_, ?_⟩
  · rw [ExtendedMantissa.shiftRightOne, h.mantissa_eq, Nat.div_div_eq_div_mul]
  · simp only [ExtendedMantissa.shiftRightOne, h.mantissa_eq, bne_iff_ne, hremainder]
    rcases hbit with hbit | hbit <;> rw [hbit] <;> omega
  · simp only [ExtendedMantissa.shiftRightOne, Bool.or_eq_true, h.roundBit_iff, h.stickyBit_iff,
      hremainder]
    rcases hbit with hbit | hbit <;> rw [hbit] <;> omega

lemma approximates_shiftRight (m k : ℕ) :
    Approximates (ExtendedMantissa.ofMantissaAndAccuracy m .exact >>> k) m (2 ^ k) := by
  induction k with
  | zero => exact approximates_exact m
  | succ k ih => exact ih.shiftRightOne (Nat.two_pow_pos k)

/-- The two bits suffice to round. -/
lemma Approximates.roundedMantissa (h : Approximates em num den) :
    em.roundedMantissa = Digits.roundDiv num den := by
  obtain ⟨m, roundBit, stickyBit⟩ := em
  obtain ⟨hm, hround, hsticky⟩ := h
  dsimp only at hm hround hsticky
  subst hm
  simp only [ExtendedMantissa.roundedMantissa, Digits.roundDiv]
  cases roundBit <;> cases stickyBit <;>
    simp only [ExtendedMantissa.accuracy, Accuracy.roundToNearestEven, true_iff, false_iff,
      Bool.false_eq_true] at hround hsticky ⊢ <;>
    split_ifs <;> omega

/-- Shifting leaves 53 bits. -/
lemma shiftToTargetExponent_eq {m : ℕ} {e : ℤ} (hm : 52 ≤ m.log2) (he : -1074 ≤ e) :
    shiftToTargetExponent Format.binary64 m e .exact =
      (ExtendedMantissa.ofMantissaAndAccuracy m .exact >>> (m.log2 - 52),
        e + (m.log2 - 52 : ℕ)) := by
  have htarget : (Format.binary64.targetExponent (totalExponent m e) - e).toNat = m.log2 - 52 := by
    simp only [Format.targetExponent, totalExponent, Format.mantissaBits, Format.minExponent]
    omega
  rw [shiftToTargetExponent, shiftToExponent, htarget]

/-- A quotient by a power of two that leaves 53 bits, and the number it is rounded to. -/
lemma roundDiv_mem_Icc {m : ℕ} (hm : 52 ≤ m.log2) :
    Digits.roundDiv m (2 ^ (m.log2 - 52)) ∈ Set.Icc (2 ^ 52) (2 ^ 53) := by
  have hne : m ≠ 0 := by
    rintro rfl
    simp at hm
  have hlo : 2 ^ 52 ≤ m / 2 ^ (m.log2 - 52) := by
    rw [Nat.le_div_iff_mul_le (Nat.two_pow_pos _), ← pow_add, Nat.add_sub_cancel' hm]
    exact Nat.log2_self_le hne
  have hhi : m / 2 ^ (m.log2 - 52) < 2 ^ 53 := by
    rw [Nat.div_lt_iff_lt_mul (Nat.two_pow_pos _), ← pow_add,
      show 53 + (m.log2 - 52) = m.log2 + 1 by omega]
    exact Nat.lt_log2_self
  rw [Digits.roundDiv, Set.mem_Icc]
  split_ifs <;> omega

/-- Rounding gives a significand of 53 bits.  It is shifted once more if all 53 bits were set and
the number was rounded up. -/
lemma exists_roundWithAccuracy_eq {m : ℕ} {e : ℤ} (hm : 52 ≤ m.log2) (he : -1074 ≤ e) :
    ∃ significand j : ℕ, ∃ hpos : 0 < significand,
      roundWithAccuracy Format.binary64 .positive m e .exact =
        .finite .positive significand (e + (m.log2 - 52 : ℕ) + j) hpos ∧
      2 ^ 52 ≤ significand ∧ significand < 2 ^ 53 ∧ j ≤ 1 ∧
      significand * 2 ^ j = Digits.roundDiv m (2 ^ (m.log2 - 52)) := by
  obtain ⟨hlo, hhi⟩ := roundDiv_mem_Icc hm
  have hfirst := (approximates_shiftRight m (m.log2 - 52)).roundedMantissa
  set rounded := Digits.roundDiv m (2 ^ (m.log2 - 52))
  have hlog : rounded.log2 = 52 ∨ rounded = 2 ^ 53 := by
    rcases hhi.lt_or_eq with hlt | heq
    · exact .inl ((Nat.log2_eq_iff (by omega)).mpr ⟨hlo, hlt⟩)
    · exact .inr heq
  have hsecond := (approximates_shiftRight rounded (rounded.log2 - 52)).mantissa_eq
  have hrounded : 52 ≤ rounded.log2 := by
    rcases hlog with h | h
    · exact h.ge
    · rw [h, Nat.log2_two_pow]
      decide
  have hfinal : 2 ^ 52 ≤ rounded / 2 ^ (rounded.log2 - 52) ∧
      rounded / 2 ^ (rounded.log2 - 52) < 2 ^ 53 ∧ rounded.log2 - 52 ≤ 1 ∧
        rounded / 2 ^ (rounded.log2 - 52) * 2 ^ (rounded.log2 - 52) = rounded := by
    rcases hlog with h | h
    · rw [h, Nat.sub_self, pow_zero, Nat.div_one, mul_one]
      refine ⟨hlo, ?_, by decide, rfl⟩
      rw [← Nat.log2_lt (by omega), h]
      decide
    · rw [h, Nat.log2_two_pow]
      decide
  refine ⟨rounded / 2 ^ (rounded.log2 - 52), rounded.log2 - 52, by omega, ?_, hfinal⟩
  rw [roundWithAccuracy, shiftToTargetExponent_eq hm he]
  dsimp only
  rw [hfirst, shiftToTargetExponent_eq hrounded (by omega)]
  dsimp only
  rw [dif_neg (by rw [hsecond]; omega)]
  simp only [hsecond]

end Shifting

/-! ## Words put together -/

lemma toNat_packComponents (exponent : BitVec 11) (mantissa : BitVec 52) :
    (packComponents Format.binary64 .positive exponent mantissa).toNat =
      exponent.toNat * 2 ^ 52 + mantissa.toNat := by
  have hsign : (Sign.toBitVec .positive).toNat = 0 := rfl
  rw [packComponents, BitVec.toNat_append, BitVec.toNat_append,
    ← Nat.shiftLeft_add_eq_or_of_lt (BitVec.isLt _),
    ← Nat.shiftLeft_add_eq_or_of_lt (BitVec.isLt _), hsign, Nat.zero_shiftLeft, Nat.zero_add,
    Nat.shiftLeft_eq]

/-- A significand of 53 bits is packed without its first bit. -/
lemma pack_eq {significand : ℕ} {exponent : ℤ} (hpos : 0 < significand)
    (hlo : 2 ^ 52 ≤ significand) (hhi : significand < 2 ^ 53) (hmax : exponent ≤ 971) :
    pack Format.binary64 (.finite .positive significand exponent hpos) =
      packComponents Format.binary64 .positive (BitVec.ofNat 11 (exponent + 1075).toNat)
        (BitVec.ofNat 52 significand) := by
  have hlog : significand.log2 + 1 = Format.binary64.mantissaBits := by
    rw [(Nat.log2_eq_iff hpos.ne').mpr ⟨hlo, hhi⟩]
    rfl
  have hbiased : (exponent + Format.binary64.exponentBias +
      (Format.binary64.mantissaBitsWithoutImplicit : ℕ)).toNat = (exponent + 1075).toNat := by
    simp only [Format.exponentBias]
    omega
  rw [pack]
  dsimp only
  rw [hbiased, if_neg (by omega), if_pos hlog]

/-- The fields of a number whose significand has 53 bits. -/
lemma fields_pack {significand : ℕ} {exponent : ℤ} (hpos : 0 < significand)
    (hlo : 2 ^ 52 ≤ significand) (hhi : significand < 2 ^ 53) (hmin : -1074 ≤ exponent)
    (hmax : exponent ≤ 971) {x : Binary64}
    (hx : x = ofFloat ⟨Float.Model.pack (.finite .positive significand exponent hpos)⟩) :
    x.isFinite = true ∧ x.negative = false ∧ x.significand = significand ∧
      x.scale = exponent := by
  have hbits : x.bits.toNat = (exponent + 1075).toNat * 2 ^ 52 + significand % 2 ^ 52 := by
    have hword : x.bits.toNat =
        (pack Format.binary64 (.finite .positive significand exponent hpos)).toNat := by
      rw [hx]
      rfl
    rw [hword, pack_eq hpos hlo hhi hmax, toNat_packComponents, BitVec.toNat_ofNat,
      BitVec.toNat_ofNat]
    omega
  have hmagnitude : x.magnitudeBits =
      (exponent + 1075).toNat * 2 ^ 52 + significand % 2 ^ 52 := by
    rw [magnitudeBits, hbits]
    omega
  have hexponent : x.exponentBits = (exponent + 1075).toNat := by
    rw [exponentBits, hmagnitude]
    omega
  have hfraction : x.fractionBits = significand % 2 ^ 52 := by
    rw [fractionBits, hmagnitude]
    omega
  refine ⟨?_, ?_, ?_, ?_⟩
  · rw [isFinite, hexponent, bne_iff_ne]
    omega
  · rw [negative, hbits, decide_eq_false_iff_not]
    omega
  · rw [Binary64.significand, hexponent, hfraction, if_neg (by omega)]
    omega
  · rw [scale, hexponent]
    omega

/-! ## Whole numbers -/

/-- Taking out a common factor does not change what a quotient is rounded to. -/
lemma roundDiv_mul_right (num den : ℕ) {c : ℕ} (hc : 0 < c) :
    Digits.roundDiv (num * c) (den * c) = Digits.roundDiv num den := by
  have hquotient : num * c / (den * c) = num / den := Nat.mul_div_mul_right _ _ hc
  have hremainder : num * c % (den * c) = num % den * c := Nat.mul_mod_mul_right _ _ _
  have hlt (a b : ℕ) : a * c < b * c ↔ a < b := Nat.mul_lt_mul_right hc
  simp only [Digits.roundDiv, hquotient, hremainder, ← mul_assoc, hlt]

/-- A number of more than 53 bits is converted by rounding it. -/
lemma ofNat_eq_round {n : ℕ} (hn : 2 ^ 53 ≤ n) :
    ofNat n = ofFloat ⟨Float.Model.pack
      (roundWithAccuracy Format.binary64 .positive (n * 2 ^ 53) (-53) .exact)⟩ := by
  have hne : n ≠ 0 := by omega
  have hslow : ¬ (n < 2 ^ 53 ∧ 0 ≤ 22) := by omega
  have hscientific : UnpackedFloat.ofScientific Format.binary64 n 0 =
      roundWithAccuracy Format.binary64 .positive (n * 2 ^ 53) (-53) .exact := by
    have hbits : Format.binary64.mantissaBits = 53 := rfl
    have hrange : ¬ (0 : ℤ) < -(2 ^ Format.binary64.exponentBits + n.log2) := by
      have : (0 : ℤ) ≤ 2 ^ Format.binary64.exponentBits := by decide
      omega
    rw [ofScientific, dif_neg hne, if_neg (by decide), if_neg hrange, if_pos le_rfl, mul,
      Nat.shiftLeft_eq, hbits, Int.toNat_zero, pow_zero, mul_one, add_zero]
    rfl
  rw [ofNat, ← hscientific]
  refine congrArg ofFloat ?_
  show Float.ofScientific n false 0 = _
  rw [Float.ofScientific, dif_neg hslow]
  rfl

lemma log2_mul_two_pow {n : ℕ} (hn : n ≠ 0) (k : ℕ) : (n * 2 ^ k).log2 = n.log2 + k := by
  rw [Nat.log2_eq_iff (Nat.mul_ne_zero hn (Nat.two_pow_pos k).ne')]
  constructor
  · rw [pow_add]
    exact Nat.mul_le_mul_right _ (Nat.log2_self_le hn)
  · rw [Nat.add_right_comm, pow_add]
    exact Nat.mul_lt_mul_of_pos_right Nat.lt_log2_self (Nat.two_pow_pos k)

/-- A whole number of more than 53 bits becomes the nearest of the doubles of its size. -/
theorem rounds_ofNat {n : ℕ} (hlo : 53 ≤ n.log2) (hhi : n.log2 < 1023) :
    (ofNat n).isFinite = true ∧ (ofNat n).negative = false ∧
      Rounds (2 ^ (n.log2 - 52)) n (ofNat n).value := by
  have hne : n ≠ 0 := by
    rintro rfl
    simp at hlo
  have hlarge : 2 ^ 53 ≤ n := (Nat.le_log2 hne).mp hlo
  have hlog : (n * 2 ^ 53).log2 = n.log2 + 53 := log2_mul_two_pow hne 53
  obtain ⟨significand, j, hpos, hround, hmin, hmax, hj, hsignificand⟩ :=
    exists_roundWithAccuracy_eq (m := n * 2 ^ 53) (e := -53) (by omega) (by decide)
  have hsmall : -1074 ≤ -53 + ((n * 2 ^ 53).log2 - 52 : ℕ) + (j : ℤ) := by omega
  obtain ⟨hfinite, hnegative, hfield, hscale⟩ := fields_pack (x := ofNat n) hpos hmin hmax
    hsmall (by omega) (by rw [ofNat_eq_round hlarge, hround])
  have hrounded : significand * 2 ^ j = Digits.roundDiv n (2 ^ (n.log2 - 52)) := by
    rw [hsignificand, hlog, show n.log2 + 53 - 52 = n.log2 - 52 + 53 by omega, pow_add]
    exact roundDiv_mul_right _ _ (Nat.two_pow_pos 53)
  have hexponent : (ofNat n).scale = (j + (n.log2 - 52) : ℕ) := by
    rw [hscale, hlog]
    omega
  refine ⟨hfinite, hnegative, Digits.roundDiv n (2 ^ (n.log2 - 52)), ?_, ?_⟩
  · exact_mod_cast nearest_roundDiv n (Nat.two_pow_pos (n.log2 - 52))
  · rw [value, hnegative, hfield, hexponent, ← hrounded, zpow_natCast, pow_add]
    push_cast
    simp [mul_assoc]

end RevenueDesk.Binary64
