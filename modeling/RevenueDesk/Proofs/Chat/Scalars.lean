/-
# Single numbers as the chat shows them

Of a double the chat shows the number rounded to hundredths, and the text is the one that shows
this number (`decimal_shown`).

Of a whole number it shows the number that it is taken for: itself if it fits the signed type,
and otherwise the nearest double.  So some whole numbers are not shown as they are, and some of
them alike (`whole_shown`).
-/
import Mathlib
import RevenueDesk.Proofs.Chat.Figures
import RevenueDesk.Proofs.Json.WholeNumbers
import RevenueDesk.Proofs.Number.Rounding

namespace RevenueDesk.Chat

open JsonNumber (TakenFor largestSigned largestWhole)

/-! ## Doubles -/

/-- The hundredths of a double are those of its exact value, rounded. -/
lemma rounds_units (x : Binary64) :
    Rounds (1 / 100) x.value
      ((if x.negative then -1 else 1) * (FixedPlaces.units 2 x : ℕ) / 100) := by
  have hmagnitude : (x.significand : ℚ) * 2 ^ x.scale / (1 / 100) =
      (x.significand * Nat.pow 10 2 * Nat.pow 2 x.scale.toNat : ℕ) /
        (Nat.pow 2 (-x.scale).toNat : ℕ) := by
    have hscale : (2 : ℚ) ^ x.scale = 2 ^ x.scale.toNat / 2 ^ (-x.scale).toNat := by
      rw [← zpow_natCast, ← zpow_natCast, ← zpow_sub₀ two_ne_zero]
      congr 1
      omega
    simp only [Nat.pow_eq]
    push_cast
    rw [hscale]
    ring
  have hnearest : Nearest ((x.significand : ℚ) * 2 ^ x.scale / (1 / 100))
      (FixedPlaces.units 2 x : ℕ) := by
    rw [hmagnitude]
    exact nearest_roundDiv _ (Nat.two_pow_pos _)
  unfold Binary64.value
  split_ifs
  · refine ⟨-(FixedPlaces.units 2 x : ℕ), ?_, ?_⟩
    · rw [neg_one_mul, neg_mul, neg_div]
      exact hnearest.neg
    · push_cast
      ring
  · refine ⟨(FixedPlaces.units 2 x : ℕ), ?_, ?_⟩
    · rw [one_mul]
      exact hnearest
    · push_cast
      ring

lemma shown_formatReal {x : Binary64} {r : ℚ} (h : Rounds (1 / 100) x.value r) :
    ∃ f, Shown (formatReal x) r f := by
  rw [(existsUnique_rounds _ _).unique h (rounds_units x)]
  exact shown_hundredths _ _

/-- A double with at most two decimal places is shown exactly. -/
lemma shown_formatReal_of_exact {x : Binary64} {k : ℤ} (h : x.value = (k : ℚ) / 100) :
    ∃ f, Shown (formatReal x) x.value f := by
  refine shown_formatReal ((rounds_self_iff (by norm_num)).mpr ⟨k, ?_⟩)
  rw [h, div_eq_mul_one_div]

/-- A double is shown rounded to hundredths: its text is the one that shows the number which its
exact value is rounded to. -/
theorem decimal_shown (x : Binary64) :
    (∃! r, Rounds (1 / 100) x.value r) ∧
      ∀ text, formatScalar (.number (.real x)) = text ↔
        ∃ r f, Rounds (1 / 100) x.value r ∧ Shown text.toList r f := by
  have hformat : formatScalar (.number (.real x)) = String.ofList (formatReal x) := rfl
  have hexists := existsUnique_rounds (1 / 100) x.value
  refine ⟨hexists, fun text => ?_⟩
  rw [hformat]
  constructor
  · rintro rfl
    obtain ⟨r, hr, -⟩ := hexists
    obtain ⟨f, hf⟩ := shown_formatReal hr
    exact ⟨r, f, hr, by rwa [String.toList_ofList]⟩
  · rintro ⟨r, f, hr, hf⟩
    obtain ⟨f', hf'⟩ := shown_formatReal hr
    rw [hf'.text_unique hf, String.ofList_toList]

/-! ## Whole numbers -/

/-- A whole number is shown as the number that it is taken for. -/
lemma shown_formatNumber {n : ℤ} {r : ℚ} (hhi : n ≤ largestWhole) (hr : TakenFor n r) :
    ∃ f, Shown (formatNumber (.whole n)) r f := by
  rcases le_or_gt n largestSigned with hle | hlt
  · have hformat : formatNumber (.whole n) = formatInt n := by
      rw [formatNumber, JsonNumber.toSigned?, if_pos hle]
    rw [hformat, (JsonNumber.takenFor_of_le hle).mp hr]
    exact shown_formatInt n
  · have hformat : formatNumber (.whole n) = formatReal (JsonNumber.toBinary64 (.whole n)) := by
      rw [formatNumber, JsonNumber.toSigned?, if_neg (not_le.mpr hlt)]
    obtain ⟨-, -, htaken⟩ := JsonNumber.takenFor_toBinary64 hlt hhi
    obtain ⟨k, -, hk⟩ := (JsonNumber.takenFor_of_lt hlt).mp htaken
    rw [hformat, hr.unique htaken]
    refine shown_formatReal_of_exact (k := k * 204800) ?_
    rw [hk]
    push_cast
    ring

lemma formatScalar_whole (n : ℤ) :
    (formatScalar (.number (.whole n))).toList = formatNumber (.whole n) := String.toList_ofList

/-- What is taken for the same number is shown alike. -/
lemma formatScalar_eq_of_takenFor {m n : ℤ} {r : ℚ} (hm : m ≤ largestWhole)
    (hn : n ≤ largestWhole) (hm' : TakenFor m r) (hn' : TakenFor n r) :
    formatScalar (.number (.whole m)) = formatScalar (.number (.whole n)) := by
  obtain ⟨f, hf⟩ := shown_formatNumber hm hm'
  obtain ⟨f', hf'⟩ := shown_formatNumber hn hn'
  rw [← String.toList_inj, formatScalar_whole, formatScalar_whole, hf.text_unique hf']

/-- A whole number is shown by its numeral exactly if it fits the signed type or 2048 divides it;
otherwise by the numeral of the multiple of 2048 next to it.  Two whole numbers are shown alike
exactly if they are equal, or both are beyond the signed type and have the same such multiple. -/
theorem whole_shown {n : ℤ} (hn : n ≤ largestWhole) :
    ∃ r f, Shown (formatScalar (.number (.whole n))).toList r f ∧
      (n ≤ largestSigned → r = n) ∧ (largestSigned < n → Rounds 2048 n r) ∧
      (r = n ↔ n ≤ largestSigned ∨ 2048 ∣ n) ∧
      ∀ m ≤ largestWhole,
        formatScalar (.number (.whole m)) = formatScalar (.number (.whole n)) ↔
          m = n ∨ largestSigned < m ∧ largestSigned < n ∧ Rounds 2048 m r := by
  obtain ⟨r, hr, -⟩ := JsonNumber.existsUnique_takenFor n
  obtain ⟨f, hf⟩ := shown_formatNumber hn hr
  refine ⟨r, f, by rwa [formatScalar_whole], fun h => (JsonNumber.takenFor_of_le h).mp hr,
    fun h => (JsonNumber.takenFor_of_lt h).mp hr, ?_, ?_⟩
  · rw [← JsonNumber.takenFor_self_iff]
    exact ⟨fun h => h ▸ hr, hr.unique⟩
  · intro m hm
    rw [← JsonNumber.takenFor_iff_of_takenFor hr]
    constructor
    · intro hsame
      obtain ⟨r', hr', -⟩ := JsonNumber.existsUnique_takenFor m
      obtain ⟨f', hf'⟩ := shown_formatNumber hm hr'
      rw [← formatScalar_whole, hsame, formatScalar_whole] at hf'
      rwa [hf.unique hf']
    · exact fun hm' => formatScalar_eq_of_takenFor hm hn hm' hr

theorem whole_shown_beyond_signed :
    9223372036854775809 ≤ largestWhole ∧
    ∃ r f, Shown (formatScalar (.number (.whole 9223372036854775809))).toList r f ∧
      (9223372036854775809 ≤ largestSigned → r = (9223372036854775809 : ℤ)) ∧
      (largestSigned < 9223372036854775809 → Rounds 2048 (9223372036854775809 : ℤ) r) ∧
      (r = (9223372036854775809 : ℤ) ↔
        9223372036854775809 ≤ largestSigned ∨ (2048 : ℤ) ∣ 9223372036854775809) ∧
      ∀ m ≤ largestWhole,
        formatScalar (.number (.whole m)) =
            formatScalar (.number (.whole 9223372036854775809)) ↔
          m = 9223372036854775809 ∨ largestSigned < m ∧
            largestSigned < 9223372036854775809 ∧ Rounds 2048 m r :=
  ⟨by decide, whole_shown (by decide)⟩

/-- Behind the first number beyond the signed type there is one that is shown like it. -/
theorem whole_shown_alike :
    formatScalar (.number (.whole 9223372036854775809)) =
        formatScalar (.number (.whole 9223372036854775808)) ∧
      ¬ ∃ f, Shown (formatScalar (.number (.whole 9223372036854775809))).toList
        (9223372036854775809 : ℤ) f := by
  have hfirst : TakenFor 9223372036854775808 (9223372036854775808 : ℤ) :=
    JsonNumber.takenFor_self_iff.mpr (.inr ⟨2 ^ 52, by norm_num⟩)
  have hsecond : TakenFor 9223372036854775809 (9223372036854775808 : ℤ) := by
    refine (JsonNumber.takenFor_of_lt (by decide)).mpr ⟨2 ^ 52, nearest_of_lt ?_, by norm_num⟩
    rw [abs_lt]
    norm_num
  refine ⟨formatScalar_eq_of_takenFor (by decide) (by decide) hsecond hfirst, ?_⟩
  rintro ⟨f, hf⟩
  rw [formatScalar_whole] at hf
  obtain ⟨f', hf'⟩ := shown_formatNumber (by decide) hsecond
  exact absurd (hf.unique hf') (by norm_num)

end RevenueDesk.Chat
