/-
# Numerals and decimal places

Numerals are written in the usual way (`numeral_eq_toDigits`).  Digits behind a decimal point
denote a number below one (`fractionValue`), and zeros at their end make no difference to it.  The
decimal places of a number of units, together with its whole part, denote the number divided by
the units in one (`whole_add_fractionValue`).
-/
import Mathlib.Algebra.Order.Field.Rat
import Mathlib.Tactic.FieldSimp
import Mathlib.Tactic.Linarith
import Mathlib.Tactic.NormNum
import Mathlib.Tactic.Positivity
import RevenueDesk.Number.FixedPlaces

namespace RevenueDesk

namespace Digits

section Numerals

variable {n : ℕ}

lemma digitChar_eq {d : ℕ} (h : d < 10) : digitChar d = d.digitChar := by
  revert d
  decide

lemma digitsOnto_eq_toDigits (hn : n ≠ 0) : digitsOnto n [] = Nat.toDigits 10 n := by
  induction n using Nat.strongRecOn with
  | _ n ih =>
    have hsplit := digitsOnto_append (n / 10) [] [digitChar (n % 10)]
    rw [List.nil_append] at hsplit
    rw [digitsOnto, dif_neg hn, hsplit, digitChar_eq (Nat.mod_lt n (by decide))]
    by_cases hlt : n < 10
    · rw [Nat.toDigits_of_lt_base hlt, Nat.div_eq_of_lt hlt, Nat.mod_eq_of_lt hlt,
        digitsOnto, dif_pos rfl, List.nil_append]
    · have hle : 10 ≤ n := Nat.not_lt.mp hlt
      have hdiv : n / 10 ≠ 0 := by omega
      rw [ih (n / 10) (by omega) hdiv, ← Nat.toDigits_of_base_le (by decide) hle]

/-- Numerals are written in the usual way. -/
lemma numeral_eq_toDigits (n : ℕ) : numeral n = Nat.toDigits 10 n := by
  by_cases hn : n = 0
  · rw [hn, Nat.toDigits_zero]
    rfl
  · rw [numeral, if_neg hn, digitsOnto_eq_toDigits hn]

lemma isDigit_of_mem_digitsOnto_nil {c : Char} (hc : c ∈ digitsOnto n []) : c.isDigit = true := by
  by_cases hn : n = 0
  · simp [hn, digitsOnto] at hc
  · rw [digitsOnto_eq_toDigits hn] at hc
    exact Nat.isDigit_of_mem_toDigits (by decide) (by decide) hc

lemma ofDigitChars_digitsOnto (n : ℕ) : Nat.ofDigitChars 10 (digitsOnto n []) 0 = n := by
  by_cases hn : n = 0
  · rw [hn, digitsOnto, dif_pos rfl, Nat.ofDigitChars_nil]
  · rw [digitsOnto_eq_toDigits hn, Nat.ofDigitChars_ten_toDigits]

lemma length_digitsOnto_le {places : ℕ} (h : n < 10 ^ places) :
    (digitsOnto n []).length ≤ places := by
  by_cases hn : n = 0
  · simp [hn, digitsOnto]
  · have hplaces : 0 < places := by
      by_contra hzero
      rw [Nat.eq_zero_of_not_pos hzero, pow_zero] at h
      omega
    rw [digitsOnto_eq_toDigits hn]
    exact (Nat.length_toDigits_le_iff (by decide) hplaces).mpr h

end Numerals

/-! ## Behind the point -/

section Places

variable {ds : List Char}

/-- The number that digits behind a decimal point denote. -/
def fractionValue (ds : List Char) : ℚ := Nat.ofDigitChars 10 ds 0 / 10 ^ ds.length

@[simp] lemma fractionValue_nil : fractionValue [] = 0 := by
  rw [fractionValue, Nat.ofDigitChars_nil, Nat.cast_zero, zero_div]

lemma fractionValue_append_zeros (ds : List Char) (k : ℕ) :
    fractionValue (ds ++ List.replicate k '0') = fractionValue ds := by
  rw [fractionValue, Nat.ofDigitChars_append, Nat.ofDigitChars_replicate_zero, List.length_append,
    List.length_replicate, pow_add, mul_comm (10 ^ ds.length), fractionValue, Nat.cast_mul,
    Nat.cast_pow, Nat.cast_ofNat]
  exact mul_div_mul_left _ _ (pow_ne_zero k (by norm_num))

lemma isDigit_iff {c : Char} : c.isDigit = true ↔ 48 ≤ c.toNat ∧ c.toNat ≤ 57 := by
  simp only [Char.isDigit, Bool.and_eq_true, decide_eq_true_eq, UInt32.le_iff_toNat_le]
  rfl

lemma digitValue?_eq (c : Char) :
    digitValue? c = if c.isDigit = true then some (c.toNat - 48) else none := by
  have hrange : ('0' ≤ c ∧ c ≤ '9') ↔ c.isDigit = true := by
    rw [isDigit_iff]
    rfl
  simp only [digitValue?, hrange]

lemma ofDigitChars_lt (hds : ∀ c ∈ ds, c.isDigit = true) :
    Nat.ofDigitChars 10 ds 0 < 10 ^ ds.length := by
  induction ds with
  | nil => decide
  | cons c ds ih =>
    obtain ⟨hc, hrest⟩ := List.forall_mem_cons.mp hds
    have hdigit : c.toNat - '0'.toNat < 10 := by
      have hrange := isDigit_iff.mp hc
      show c.toNat - 48 < 10
      omega
    have hlt := ih hrest
    rw [Nat.ofDigitChars_cons, Nat.ofDigitChars_eq_ofDigitChars_zero, List.length_cons, pow_succ,
      Nat.mul_zero, Nat.zero_add]
    nlinarith

lemma fractionValue_nonneg (ds : List Char) : 0 ≤ fractionValue ds := by
  unfold fractionValue
  positivity

lemma fractionValue_lt_one (hds : ∀ c ∈ ds, c.isDigit = true) : fractionValue ds < 1 := by
  rw [fractionValue, div_lt_one (by positivity)]
  exact_mod_cast ofDigitChars_lt hds

/-- The value of the first digit, if there is one. -/
lemma fractionValue_cons (c : Char) (ds : List Char) :
    fractionValue (c :: ds) = ((c.toNat - 48 : ℕ) + fractionValue ds) / 10 := by
  have hvalue : Nat.ofDigitChars 10 (c :: ds) 0 =
      10 ^ ds.length * (c.toNat - 48) + Nat.ofDigitChars 10 ds 0 := by
    rw [Nat.ofDigitChars_cons, Nat.ofDigitChars_eq_ofDigitChars_zero, Nat.mul_zero, Nat.zero_add]
    rfl
  rw [fractionValue, fractionValue, hvalue, List.length_cons, pow_succ]
  push_cast
  field_simp

/-- Digits that denote zero are zeros, also the last one. -/
lemma eq_nil_of_fractionValue_eq_zero (hds : ∀ c ∈ ds, c.isDigit = true)
    (hlast : ds.getLast? ≠ some '0') (h : fractionValue ds = 0) : ds = [] := by
  rcases List.eq_nil_or_concat' ds with rfl | ⟨ds', c, rfl⟩
  · rfl
  have hzero : Nat.ofDigitChars 10 (ds' ++ [c]) 0 = 0 := by
    rw [fractionValue, div_eq_zero_iff, or_iff_left (pow_ne_zero _ (by norm_num))] at h
    exact_mod_cast h
  rw [Nat.ofDigitChars_append, Nat.ofDigitChars_cons, Nat.ofDigitChars_nil] at hzero
  have hdigit : c.toNat - 48 = 0 := Nat.eq_zero_of_add_eq_zero_left hzero
  have hrange := isDigit_iff.mp (hds c (by simp))
  have hc : c = '0' := Char.toNat_inj.mp (by show c.toNat = 48; omega)
  rw [hc, List.getLast?_concat] at hlast
  exact absurd rfl hlast

/-- A number and what is below one are told apart. -/
lemma nat_add_inj {m n : ℕ} {a b : ℚ} (ha : a ∈ Set.Ico (0 : ℚ) 1) (hb : b ∈ Set.Ico (0 : ℚ) 1)
    (h : m + a = n + b) : m = n ∧ a = b := by
  have hlt : (m : ℚ) < n + 1 := by linarith [ha.1, hb.2]
  have hgt : (n : ℚ) < m + 1 := by linarith [ha.2, hb.1]
  have heq : m = n := by
    have : m < n + 1 := by exact_mod_cast hlt
    have : n < m + 1 := by exact_mod_cast hgt
    omega
  subst heq
  exact ⟨rfl, add_left_cancel h⟩

/-- Digits without a zero at their end are told by the number that they denote. -/
lemma eq_of_fractionValue_eq {ds ds' : List Char} (hds : ∀ c ∈ ds, c.isDigit = true)
    (hds' : ∀ c ∈ ds', c.isDigit = true) (hlast : ds.getLast? ≠ some '0')
    (hlast' : ds'.getLast? ≠ some '0') (h : fractionValue ds = fractionValue ds') : ds = ds' := by
  induction ds generalizing ds' with
  | nil =>
    have hzero : fractionValue ds' = 0 := by rw [← h, fractionValue_nil]
    rw [eq_nil_of_fractionValue_eq_zero hds' hlast' hzero]
  | cons c ds ih =>
    cases ds' with
    | nil =>
      have hzero : fractionValue (c :: ds) = 0 := by rw [h, fractionValue_nil]
      rw [eq_nil_of_fractionValue_eq_zero hds hlast hzero]
    | cons c' ds' =>
      obtain ⟨hc, hrest⟩ := List.forall_mem_cons.mp hds
      obtain ⟨hc', hrest'⟩ := List.forall_mem_cons.mp hds'
      have hnolast {d : Char} {es : List Char} (he : (d :: es).getLast? ≠ some '0') :
          es.getLast? ≠ some '0' := by
        intro heq
        rw [List.getLast?_cons, heq] at he
        exact he rfl
      rw [fractionValue_cons, fractionValue_cons, div_left_inj' (by norm_num)] at h
      obtain ⟨hdigit, htail⟩ := nat_add_inj ⟨fractionValue_nonneg _, fractionValue_lt_one hrest⟩
        ⟨fractionValue_nonneg _, fractionValue_lt_one hrest'⟩ h
      have hchar : c = c' := by
        have hrange := isDigit_iff.mp hc
        have hrange' := isDigit_iff.mp hc'
        exact Char.toNat_inj.mp (by omega)
      rw [hchar, ih hrest hrest' (hnolast hlast) (hnolast hlast') htail]

end Places

end Digits

namespace FixedPlaces

variable (places units : ℕ)

lemma length_fraction : (fraction places units).length = places := by
  have hlt : units % 10 ^ places < 10 ^ places := Nat.mod_lt _ (by positivity)
  have hle : (Digits.digitsOnto (units % Nat.pow 10 places) []).length ≤ places :=
    Digits.length_digitsOnto_le hlt
  rw [fraction, List.length_append, List.length_replicate]
  omega

lemma ofDigitChars_fraction :
    Nat.ofDigitChars 10 (fraction places units) 0 = units % 10 ^ places := by
  rw [fraction, Nat.ofDigitChars_append, Nat.ofDigitChars_replicate_zero, Nat.mul_zero]
  exact Digits.ofDigitChars_digitsOnto _

variable {places units} in
lemma isDigit_of_mem_fraction {c : Char} (hc : c ∈ fraction places units) : c.isDigit = true := by
  rw [fraction] at hc
  rcases List.mem_append.mp hc with hzero | hdigit
  · rw [List.eq_of_mem_replicate hzero]
    decide
  · exact Digits.isDigit_of_mem_digitsOnto_nil hdigit

/-- The whole part and the decimal places make up the number. -/
theorem whole_add_fractionValue :
    whole places units + Digits.fractionValue (fraction places units) =
      (units : ℚ) / 10 ^ places := by
  have hsplit : (10 : ℚ) ^ places * (units / 10 ^ places : ℕ) + (units % 10 ^ places : ℕ) =
      units := by
    exact_mod_cast Nat.div_add_mod units (10 ^ places)
  have hwhole : whole places units = units / 10 ^ places := rfl
  rw [Digits.fractionValue, ofDigitChars_fraction, length_fraction, hwhole,
    eq_div_iff (by positivity), add_mul, div_mul_cancel₀ _ (by positivity), mul_comm, hsplit]

end FixedPlaces

end RevenueDesk
