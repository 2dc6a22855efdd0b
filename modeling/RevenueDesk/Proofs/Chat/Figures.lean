/-
# Numbers as they are shown

A number is shown as a decimal numeral whose whole part is cut into groups of three digits by
commas.  `Shown` says what such a text is: without its commas it is the numeral of a `Figure`,
which denotes the number, and it has no digits and no sign without need.  A text shows at most one
number, and a number is shown by at most one text (`Shown.unique`, `Shown.text_unique`).

* A number of hundredths is shown (`shown_hundredths`), and so is a whole number
  (`shown_formatInt`).
-/
import Mathlib
import RevenueDesk.Chat.Scalar
import RevenueDesk.Proofs.Number.Numerals
import RevenueDesk.Proofs.Text.Trimming

namespace RevenueDesk.Chat

/-! ## Numerals -/

/-- A decimal numeral: a sign, a whole number, and the digits behind the point. -/
structure Figure where
  negative : Bool
  whole : ℕ
  fraction : List Char
  isDigit : ∀ c ∈ fraction, c.isDigit = true

namespace Figure

variable (f : Figure)

/-- The sign as it is written. -/
def sign : List Char := if f.negative then ['-'] else []

/-- The point and the digits behind it; there is no point without digits. -/
def point : List Char := if f.fraction = [] then [] else '.' :: f.fraction

/-- The numeral as it is written, without leading zeros. -/
def text : List Char := f.sign ++ (Nat.toDigits 10 f.whole ++ f.point)

/-- The number that it denotes. -/
def value : ℚ := (if f.negative then -1 else 1) * (f.whole + Digits.fractionValue f.fraction)

end Figure

/-- Commas cut a row of digits into groups of three, from the right; the first group has one to
three digits. -/
inductive Grouped (digits text : List Char) : Prop where
  | intro (first : List Char) (groups : List (List Char)) (first_pos : 1 ≤ first.length)
      (first_le : first.length ≤ 3) (length_eq : ∀ g ∈ groups, g.length = 3)
      (digits_eq : digits = first ++ groups.flatten)
      (text_eq : text = first ++ groups.flatMap (',' :: ·))

/-- A text shows the number `r` by the numeral `f`. -/
structure Shown (text : List Char) (r : ℚ) (f : Figure) : Prop where
  /-- Without its commas, the text is the numeral. -/
  text_eq : text.filter (· ≠ ',') = f.text
  /-- The numeral denotes the number. -/
  value_eq : f.value = r
  /-- There is a minus sign exactly in front of a negative number, so not in front of zero. -/
  negative_iff : f.negative = true ↔ r < 0
  length_le : f.fraction.length ≤ 2
  getLast?_ne : f.fraction.getLast? ≠ some '0'
  /-- Whole numbers, and only these, have no point. -/
  fraction_eq_nil_iff : f.fraction = [] ↔ ∃ k : ℤ, r = k
  /-- The commas stand in the whole part, and cut it into groups. -/
  grouped : ∃ groups, Grouped (Nat.toDigits 10 f.whole) groups ∧
    text = f.sign ++ (groups ++ f.point)

/-! ## Reading a numeral -/

namespace Figure

variable {f : Figure}

lemma isDigit_of_mem_toDigits {n : ℕ} {c : Char} (hc : c ∈ Nat.toDigits 10 n) :
    c.isDigit = true :=
  Nat.isDigit_of_mem_toDigits (by decide) (by decide) hc

variable (f) in
lemma exists_toDigits_eq_cons : ∃ d ds, Nat.toDigits 10 f.whole = d :: ds :=
  List.exists_cons_of_ne_nil Nat.toDigits_ne_nil

/-- The digits of the whole part are those that stand before the point. -/
lemma takeWhile_isDigit : (Nat.toDigits 10 f.whole ++ f.point).takeWhile Char.isDigit =
    Nat.toDigits 10 f.whole := by
  rw [List.takeWhile_append_of_pos fun c hc => isDigit_of_mem_toDigits hc]
  unfold point
  split
  · simp
  · simp [List.takeWhile_cons_of_neg]

/-- A numeral is read back from its text. -/
theorem text_injective : Function.Injective text := by
  intro f g h
  have hdash (n : ℕ) : (Nat.toDigits 10 n).head? ≠ some '-' := by
    intro hhead
    exact absurd (isDigit_of_mem_toDigits (List.mem_of_head? hhead)) (by decide)
  have hnegative : f.negative = g.negative := by
    have hhead (f : Figure) : f.negative = true ↔ f.text.head? = some '-' := by
      unfold text sign
      rw [List.head?_append, List.head?_append]
      cases hf : f.negative
      · obtain ⟨d, ds, hd⟩ := f.exists_toDigits_eq_cons
        have := hdash f.whole
        rw [hd] at this ⊢
        simpa using this
      · simp
    rw [Bool.eq_iff_iff, hhead, hhead, h]
  have hunsigned : Nat.toDigits 10 f.whole ++ f.point = Nat.toDigits 10 g.whole ++ g.point := by
    rw [text, text, sign, sign, hnegative] at h
    exact List.append_cancel_left h
  have hdigits : Nat.toDigits 10 f.whole = Nat.toDigits 10 g.whole := by
    rw [← takeWhile_isDigit, hunsigned, takeWhile_isDigit]
  have hwhole : f.whole = g.whole := by
    rw [← Nat.ofDigitChars_ten_toDigits (n := f.whole), hdigits, Nat.ofDigitChars_ten_toDigits]
  have hfraction : f.fraction = g.fraction := by
    rw [hdigits] at hunsigned
    have hpoint := List.append_cancel_left hunsigned
    unfold point at hpoint
    split_ifs at hpoint with hf hg hg
    · rw [hf, hg]
    · exact (List.cons.inj hpoint).2
  cases f
  cases g
  congr

end Figure

/-! ## Groups of three -/

lemma grouped_cons_comma {c : Char} {cs : List Char} (h : cs ≠ [] ∧ cs.length % 3 = 0) :
    grouped (c :: cs) = c :: ',' :: grouped cs := by
  rw [grouped, if_pos h]

lemma grouped_cons {c : Char} {cs : List Char} (h : ¬ (cs ≠ [] ∧ cs.length % 3 = 0)) :
    grouped (c :: cs) = c :: grouped cs := by
  rw [grouped, if_neg h]

lemma length_flatten_of_forall {groups : List (List Char)} (h : ∀ g ∈ groups, g.length = 3) :
    groups.flatten.length = groups.length * 3 := by
  rw [List.length_flatten,
    List.eq_replicate_iff.mpr ⟨List.length_map _, List.forall_mem_map.mpr h⟩,
    List.sum_replicate, smul_eq_mul]

/-- A row of digits is cut into groups. -/
lemma grouped_grouped (c : Char) (cs : List Char) : Grouped (c :: cs) (grouped (c :: cs)) := by
  induction cs generalizing c with
  | nil => exact ⟨[c], [], by simp, by simp, by simp, by simp, by simp [grouped]⟩
  | cons d cs ih =>
    obtain ⟨first, groups, hpos, hle, hgroups, hdigits, htext⟩ := ih d
    have hlength : (d :: cs).length = first.length + groups.length * 3 := by
      rw [hdigits, List.length_append, length_flatten_of_forall hgroups]
    by_cases hthree : (d :: cs).length % 3 = 0
    -- the group behind the digit is full, and the digit begins the next one
    · refine ⟨[c], first :: groups, by simp, by simp, ?_, by simp [hdigits], ?_⟩
      · exact List.forall_mem_cons.mpr ⟨by omega, hgroups⟩
      · rw [grouped_cons_comma ⟨by simp, hthree⟩, htext]
        simp
    · refine ⟨c :: first, groups, by simp, ?_, hgroups, by simp [hdigits], ?_⟩
      · rw [List.length_cons]
        omega
      · rw [grouped_cons (fun hfull => hthree hfull.2), htext]
        rfl

/-- Up to three digits are left together. -/
lemma grouped_short {first : List Char} (hle : first.length ≤ 3) : grouped first = first := by
  induction first with
  | nil => rfl
  | cons c cs ih =>
    rw [List.length_cons] at hle
    rw [grouped_cons (fun hfull => ?_), ih (by omega)]
    have hpos := List.length_pos_of_ne_nil hfull.1
    omega

/-- In front of full groups, up to three digits make a group. -/
lemma grouped_append {first rest : List Char} (hfirst : first ≠ []) (hle : first.length ≤ 3)
    (hrest : rest ≠ []) (hthree : rest.length % 3 = 0) :
    grouped (first ++ rest) = first ++ ',' :: grouped rest := by
  induction first with
  | nil => exact absurd rfl hfirst
  | cons c cs ih =>
    rw [List.length_cons] at hle
    rcases eq_or_ne cs [] with rfl | hcs
    · exact grouped_cons_comma ⟨hrest, hthree⟩
    · have hpos := List.length_pos_of_ne_nil hcs
      rw [List.cons_append, grouped_cons (fun hfull => ?_), ih hcs (by omega), List.cons_append]
      rw [List.length_append] at hfull
      omega

/-- A row of digits is cut into groups in one way only. -/
lemma Grouped.eq_grouped {digits text : List Char} (h : Grouped digits text) :
    text = grouped digits := by
  obtain ⟨first, groups, hpos, hle, hgroups, rfl, rfl⟩ := h
  have hfirst : first ≠ [] := List.ne_nil_of_length_pos hpos
  induction groups generalizing first with
  | nil => rw [List.flatMap_nil, List.flatten_nil, List.append_nil, grouped_short hle]
  | cons g groups ih =>
    obtain ⟨hg, hrest⟩ := List.forall_mem_cons.mp hgroups
    have hne : g ≠ [] := List.ne_nil_of_length_pos (by omega)
    have hthree : (g :: groups).flatten.length % 3 = 0 := by
      rw [length_flatten_of_forall hgroups]
      omega
    rw [grouped_append hfirst hle (by simp [hne]) hthree, List.flatten_cons,
      ← ih g (by omega) (by omega) hrest hne]
    simp

lemma filter_grouped {cs : List Char} (h : ',' ∉ cs) : (grouped cs).filter (· ≠ ',') = cs := by
  induction cs with
  | nil => rfl
  | cons c cs ih =>
    obtain ⟨hc, hcs⟩ := not_or.mp (mt List.mem_cons.mpr h)
    by_cases hthree : cs ≠ [] ∧ cs.length % 3 = 0
    · rw [grouped_cons_comma hthree, List.filter_cons_of_pos (by simp [Ne.symm hc]),
        List.filter_cons_of_neg (by simp), ih hcs]
    · rw [grouped_cons hthree, List.filter_cons_of_pos (by simp [Ne.symm hc]), ih hcs]

/-! ## Numbers as numerals -/

namespace Figure

variable (f : Figure)

lemma fractionValue_mem_Ico : Digits.fractionValue f.fraction ∈ Set.Ico 0 1 :=
  ⟨Digits.fractionValue_nonneg _, Digits.fractionValue_lt_one f.isDigit⟩

/-- A numeral without zeros at the end has a point only if it denotes no whole number. -/
lemma fraction_eq_nil_iff (hlast : f.fraction.getLast? ≠ some '0') :
    f.fraction = [] ↔ ∃ k : ℤ, f.value = k := by
  constructor
  · intro hnil
    refine ⟨(if f.negative then -1 else 1) * f.whole, ?_⟩
    rw [value, hnil, Digits.fractionValue_nil]
    push_cast
    simp
  · rintro ⟨k, hk⟩
    have hwhole : ∃ j : ℤ, Digits.fractionValue f.fraction = j := by
      unfold value at hk
      split_ifs at hk
      · exact ⟨-k - f.whole, by push_cast; linarith⟩
      · exact ⟨k - f.whole, by push_cast; linarith⟩
    obtain ⟨j, hj⟩ := hwhole
    obtain ⟨hnonneg, hlt⟩ := f.fractionValue_mem_Ico
    rw [hj] at hnonneg hlt
    have hzero : j = 0 := by
      have : 0 ≤ j := by exact_mod_cast hnonneg
      have : j < 1 := by exact_mod_cast hlt
      omega
    refine Digits.eq_nil_of_fractionValue_eq_zero f.isDigit hlast ?_
    rw [hj, hzero, Int.cast_zero]

lemma negative_iff (hsign : f.negative = true → f.value ≠ 0) :
    f.negative = true ↔ f.value < 0 := by
  have hnonneg : 0 ≤ (f.whole : ℚ) + Digits.fractionValue f.fraction :=
    add_nonneg (Nat.cast_nonneg _) f.fractionValue_mem_Ico.1
  constructor
  · intro hnegative
    refine lt_of_le_of_ne ?_ (hsign hnegative)
    rw [value, if_pos hnegative]
    linarith
  · intro hlt
    by_contra hpositive
    rw [value, if_neg hpositive, one_mul] at hlt
    exact absurd hlt (not_lt.mpr hnonneg)

/-- The numeral with commas in its whole part shows the number that it denotes. -/
theorem shown (hsign : f.negative = true → f.value ≠ 0) (hlength : f.fraction.length ≤ 2)
    (hlast : f.fraction.getLast? ≠ some '0') :
    Shown (f.sign ++ (grouped (Nat.toDigits 10 f.whole) ++ f.point)) f.value f where
  text_eq := by
    have hdigits {cs : List Char} (h : ∀ c ∈ cs, c.isDigit = true) : ',' ∉ cs :=
      fun hcomma => absurd (h _ hcomma) (by decide)
    have hkept {cs : List Char} (h : ',' ∉ cs) : cs.filter (· ≠ ',') = cs :=
      List.filter_eq_self.mpr fun c hc => decide_eq_true fun hcomma => h (hcomma ▸ hc)
    have hsigned : ',' ∉ f.sign := by
      unfold sign
      split <;> decide
    have hpoint : ',' ∉ f.point := by
      unfold point
      split
      · exact List.not_mem_nil
      · exact mt List.mem_cons.mp (not_or.mpr ⟨by decide, hdigits f.isDigit⟩)
    rw [List.filter_append, List.filter_append, hkept hsigned, hkept hpoint,
      filter_grouped (hdigits fun _ => isDigit_of_mem_toDigits), text]
  value_eq := rfl
  negative_iff := f.negative_iff hsign
  length_le := hlength
  getLast?_ne := hlast
  fraction_eq_nil_iff := f.fraction_eq_nil_iff hlast
  grouped := by
    refine ⟨_, ?_, rfl⟩
    obtain ⟨d, ds, hd⟩ := f.exists_toDigits_eq_cons
    rw [hd]
    exact grouped_grouped d ds

end Figure

/-! ## One text for one number -/

namespace Shown

variable {text text' : List Char} {r r' : ℚ} {f f' : Figure}

/-- A text shows one number at most. -/
theorem unique (h : Shown text r f) (h' : Shown text r' f') : r = r' := by
  have hfigure : f = f' := Figure.text_injective (by rw [← h.text_eq, h'.text_eq])
  rw [← h.value_eq, hfigure, h'.value_eq]

/-- A number is shown by one text at most. -/
theorem text_unique (h : Shown text r f) (h' : Shown text' r f') : text = text' := by
  have hnegative : f.negative = f'.negative := by
    rw [Bool.eq_iff_iff, h.negative_iff, h'.negative_iff]
  have hunsigned : (f.whole : ℚ) + Digits.fractionValue f.fraction =
      f'.whole + Digits.fractionValue f'.fraction := by
    have hvalue : f.value = f'.value := h.value_eq.trans h'.value_eq.symm
    rw [Figure.value, Figure.value, hnegative] at hvalue
    refine mul_left_cancel₀ ?_ hvalue
    split_ifs <;> norm_num
  obtain ⟨hwhole, hvalue⟩ :=
    Digits.nat_add_inj f.fractionValue_mem_Ico f'.fractionValue_mem_Ico hunsigned
  have hfraction : f.fraction = f'.fraction :=
    Digits.eq_of_fractionValue_eq f.isDigit f'.isDigit h.getLast?_ne h'.getLast?_ne hvalue
  obtain ⟨groups, hgroups, rfl⟩ := h.grouped
  obtain ⟨groups', hgroups', rfl⟩ := h'.grouped
  rw [hgroups.eq_grouped, hgroups'.eq_grouped, hwhole, Figure.sign, Figure.sign, hnegative,
    Figure.point, Figure.point, hfraction]

end Shown

/-! ## What the chat shows -/

/-- A whole number is shown. -/
theorem shown_formatInt (n : ℤ) : ∃ f, Shown (formatInt n) n f := by
  let f : Figure := ⟨decide (n < 0), n.natAbs, [], by simp⟩
  have hvalue : f.value = n := by
    have habs : ((n.natAbs : ℤ) : ℚ) = |(n : ℚ)| := by rw [Int.natCast_natAbs, Int.cast_abs]
    rw [Int.cast_natCast] at habs
    rw [Figure.value, Digits.fractionValue_nil, habs]
    rcases lt_or_ge n 0 with h | h
    · have hcast : (n : ℚ) < 0 := by exact_mod_cast h
      simp [f, h, abs_of_neg hcast]
    · have hcast : 0 ≤ (n : ℚ) := by exact_mod_cast h
      simp [f, h.not_gt, abs_of_nonneg hcast]
  have htext : formatInt n = f.sign ++ (grouped (Nat.toDigits 10 f.whole) ++ f.point) := by
    rw [formatInt, Digits.numeral_eq_toDigits]
    by_cases h : n < 0 <;> simp [f, Figure.sign, Figure.point, h]
  refine ⟨f, ?_⟩
  rw [htext, ← hvalue]
  refine f.shown ?_ (by simp [f]) (by simp [f])
  intro hnegative
  rw [hvalue]
  exact_mod_cast (of_decide_eq_true hnegative).ne

/-! ### Hundredths -/

section Hundredths

variable (cs : List Char)

lemma exists_trimZeros_append : ∃ k, cs = trimZeros cs ++ List.replicate k '0' := by
  obtain ⟨zeros, hcs, hzeros⟩ := Text.exists_dropEndWhile_append (· == '0') cs
  refine ⟨zeros.length, ?_⟩
  rw [← List.eq_replicate_of_mem fun c hc => beq_iff_eq.mp (hzeros c hc)]
  exact hcs

lemma fractionValue_trimZeros :
    Digits.fractionValue (trimZeros cs) = Digits.fractionValue cs := by
  obtain ⟨k, hk⟩ := exists_trimZeros_append cs
  conv_rhs => rw [hk, Digits.fractionValue_append_zeros]

lemma getLast?_trimZeros_ne : (trimZeros cs).getLast? ≠ some '0' := by
  intro h
  have hzero : ('0' == '0') = false := Text.getLast?_dropEndWhile (p := (· == '0')) h
  simp at hzero

variable {cs} in
lemma mem_of_mem_trimZeros {c : Char} (hc : c ∈ trimZeros cs) : c ∈ cs := by
  obtain ⟨k, hk⟩ := exists_trimZeros_append cs
  rw [hk]
  exact List.mem_append_left _ hc

lemma length_trimZeros_le : (trimZeros cs).length ≤ cs.length := by
  obtain ⟨k, hk⟩ := exists_trimZeros_append cs
  conv_rhs => rw [hk, List.length_append]
  exact Nat.le_add_right _ _

end Hundredths

/-- A number of hundredths is shown. -/
theorem shown_hundredths (negative : Bool) (units : ℕ) :
    ∃ f, Shown (hundredths negative units) ((if negative then -1 else 1) * units / 100) f := by
  rcases Nat.eq_zero_or_pos units with rfl | hpos
  · rw [Nat.cast_zero, mul_zero, zero_div, ← Int.cast_zero]
    exact shown_formatInt 0
  let f : Figure := ⟨negative, FixedPlaces.whole 2 units, trimZeros (FixedPlaces.fraction 2 units),
    fun _ hc => FixedPlaces.isDigit_of_mem_fraction (mem_of_mem_trimZeros hc)⟩
  have hvalue : f.value = (if negative then -1 else 1) * units / 100 := by
    rw [Figure.value, fractionValue_trimZeros, FixedPlaces.whole_add_fractionValue, mul_div_assoc]
    norm_num [f]
  have htext : hundredths negative units =
      f.sign ++ (grouped (Nat.toDigits 10 f.whole) ++ f.point) := by
    rw [hundredths, if_neg hpos.ne', Digits.numeral_eq_toDigits, List.append_assoc]
    simp only [List.isEmpty_iff]
    rfl
  refine ⟨f, ?_⟩
  rw [htext, ← hvalue]
  refine f.shown ?_ ?_ (getLast?_trimZeros_ne _)
  · intro _
    have hunits : (units : ℚ) ≠ 0 := by exact_mod_cast hpos.ne'
    rw [hvalue]
    split_ifs <;> simp [hunits]
  · exact (length_trimZeros_le _).trans (FixedPlaces.length_fraction 2 units).le

end RevenueDesk.Chat
