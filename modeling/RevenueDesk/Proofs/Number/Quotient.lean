/-
# A double divided by itself

The arithmetic of doubles is that of `Float`: words are taken apart into a sign, a significand
and an exponent, and the result is rounded and put together again.  A quotient of two equal
operands needs no rounding: it is exactly one (`div_self`), for every finite double but the zeros.
-/
import Mathlib
import RevenueDesk.Amount

namespace RevenueDesk.Binary64

open Float.Model (Format)
open Float.Model.UnpackedFloat

/-! ## Words taken apart -/

section Words

variable {b : BitVec Format.binary64.numBits}

/-- A word that stands for a finite number other than zero. -/
structure IsUsual (b : BitVec Format.binary64.numBits) : Prop where
  exponent_ne : unpackExponent b ≠ -1#11
  mantissa_ne : unpackExponent b = 0#11 → unpackMantissa b ≠ 0#52

namespace IsUsual

lemma exists_unpack_eq (h : IsUsual b) : ∃ sign significand exponent,
    ∃ hpos : 0 < significand,
      unpack Format.binary64 b = .finite sign significand exponent hpos := by
  unfold unpack
  rw [if_neg h.exponent_ne]
  split
  · -- a subnormal number
    rename_i hsub
    have hpos := Nat.pos_of_ne_zero fun hm => h.mantissa_ne hsub (BitVec.eq_of_toNat_eq hm)
    rw [dif_neg (h.mantissa_ne hsub)]
    exact ⟨_, _, _, hpos, rfl⟩
  · -- a normal number: its significand has one bit more than the fraction
    have himplicit := Nat.shiftLeft_add_eq_or_of_lt (unpackMantissa b).isLt 1
    have hpos : 0 < (1#1 ++ unpackMantissa b).toNat := by
      rw [BitVec.toNat_append, BitVec.toNat_ofNat, ← himplicit]
      exact Nat.add_pos_left (by decide) _
    exact ⟨_, _, _, hpos, rfl⟩

/-- Taken apart and put together again, a word is as it was. -/
lemma pack_unpack (h : IsUsual b) : pack Format.binary64 (unpack Format.binary64 b) = b := by
  have hnan : ¬ isNaNBits b = true := by
    rw [isNaNBits, decide_eq_true_iff]
    exact fun hnan => h.exponent_ne hnan.1
  rw [Float.Model.UnpackedFloat.pack_unpack b (by decide), if_neg hnan]

end IsUsual

/-- The division of equal operands leaves no remainder. -/
lemma div_finite_self (sign : Sign) (significand : Nat) (exponent : Int) (h : 0 < significand) :
    div Format.binary64 (.finite sign significand exponent h)
      (.finite sign significand exponent h) = .finite .positive (2 ^ 52) (-52) (by decide) := by
  have hcore : divCore Format.binary64 significand exponent significand exponent =
      (2 ^ 53, -53, .exact) := by
    have htarget : min 0 (Format.binary64.targetExponent 0) = -53 := by decide
    simp [divCore, accuracyOfFraction, Nat.shiftLeft_eq, htarget, h]
  rw [div, hcore]
  cases sign <;> rfl

end Words

/-! ## Doubles -/

variable {x : Binary64}

lemma isNaN_of_isFinite (h : x.isFinite = true) : x.isNaN = false := by
  rw [isFinite, bne_iff_ne] at h
  rw [isNaN, beq_eq_false_iff_ne.mpr h, Bool.false_and]

lemma isUsual_bits (hfinite : x.isFinite = true) (hne : x.magnitudeBits ≠ 0) :
    IsUsual x.bits.toBitVec := by
  have hexponent : (@unpackExponent Format.binary64 x.bits.toBitVec).toNat =
      x.exponentBits := by
    simp [unpackExponent, exponentBits, magnitudeBits, BitVec.extractLsb]
    omega
  have hmantissa : (@unpackMantissa Format.binary64 x.bits.toBitVec).toNat =
      x.fractionBits := by
    simp [unpackMantissa, fractionBits, magnitudeBits]
  constructor
  · intro hmax
    rw [hmax] at hexponent
    rw [isFinite, ← hexponent] at hfinite
    exact absurd hfinite (by decide)
  · intro hsub hzero
    rw [hsub, exponentBits] at hexponent
    rw [hzero, fractionBits] at hmantissa
    have hquotient : x.magnitudeBits / 0x10000000000000 = 0 := hexponent.symm
    have hremainder : x.magnitudeBits % 0x10000000000000 = 0 := hmantissa.symm
    omega

/-- A finite double that is not zero goes into itself exactly once. -/
theorem div_self (hfinite : x.isFinite = true) (hne : x.magnitudeBits ≠ 0) :
    x / x = ⟨0x3FF0000000000000⟩ := by
  obtain ⟨sign, significand, exponent, hpos, hunpack⟩ :=
    (isUsual_bits hfinite hne).exists_unpack_eq
  have hoperand : x.toFloat.toModel.unpack = .finite sign significand exponent hpos := by
    rw [← hunpack]
    exact congrArg (unpack Format.binary64) (isUsual_bits hfinite hne).pack_unpack
  have hquotient : x.toFloat / x.toFloat =
      ⟨Float.Model.pack (.finite .positive (2 ^ 52) (-52) (by decide))⟩ := by
    rw [← div_finite_self sign significand exponent hpos, ← hoperand]
    rfl
  have hnan := isNaN_of_isFinite hfinite
  change lift₂ (· / ·) x x = _
  rw [lift₂, hnan, if_neg (by decide), if_neg (by decide), hquotient]
  decide

end RevenueDesk.Binary64
