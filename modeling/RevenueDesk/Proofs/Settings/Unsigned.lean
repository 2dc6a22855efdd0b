/-
# Unsigned numbers in texts

A number is read from decimal digits, with or without a plus sign in front of them, and it is the
number that all of them denote: it fits, or it is not read (`readUnsigned_eq_ok_iff`).  A text that
is not read is refused for the first thing that is wrong with it (`readUnsigned_eq_error_iff`).
-/
import RevenueDesk.Proofs.Number.Numerals
import RevenueDesk.Settings

namespace RevenueDesk

/-- `ds` are the digits of a numeral of `n`, zeros in front of it or not. -/
structure IsDigitsOf (ds : List Char) (n : ℕ) : Prop where
  ne_nil : ds ≠ []
  isDigit : ∀ c ∈ ds, c.isDigit = true
  value : Nat.ofDigitChars 10 ds 0 = n

/-- The numerals of a number: digits, with or without a plus sign. -/
inductive IsNumeral : List Char → ℕ → Prop where
  | plain {ds : List Char} {n : ℕ} (digits : IsDigitsOf ds n) : IsNumeral ds n
  | signed {ds : List Char} {n : ℕ} (digits : IsDigitsOf ds n) : IsNumeral ('+' :: ds) n

/-! ## Digits -/

section Digits

variable {largest value n : ℕ} {c : Char} {cs ds : List Char} {reason : NumeralError}

/-- Digits that go on from `value` without passing `largest`. -/
structure Fits (largest value : ℕ) (ds : List Char) : Prop where
  isDigit : ∀ c ∈ ds, c.isDigit = true
  le : Nat.ofDigitChars 10 ds value ≤ largest

/-- The digits before some character fit, and it is the first thing that is wrong. -/
inductive Stops (largest value : ℕ) : List Char → NumeralError → Prop where
  | noDigit {ds rest : List Char} {c : Char} (before : Fits largest value ds)
      (here : c.isDigit = false) : Stops largest value (ds ++ c :: rest) .invalidDigit
  | tooMany {ds rest : List Char} {c : Char} (before : Fits largest value ds)
      (here : c.isDigit = true) (tooLarge : largest < Nat.ofDigitChars 10 (ds ++ [c]) value) :
      Stops largest value (ds ++ c :: rest) .tooLarge

/-- Each digit brings the number read so far one place further. -/
lemma readDigits_cons (c : Char) (cs : List Char) :
    readDigits largest value (c :: cs) =
      if c.isDigit = true then
        if Nat.ofDigitChars 10 [c] value ≤ largest then
          readDigits largest (Nat.ofDigitChars 10 [c] value) cs
        else .error .tooLarge
      else .error .invalidDigit := by
  have hnext : Nat.ofDigitChars 10 [c] value = value * 10 + (c.toNat - 48) := by
    rw [Nat.ofDigitChars_cons, Nat.ofDigitChars_nil, Nat.mul_comm]
    rfl
  rw [readDigits, Digits.digitValue?_eq, hnext]
  by_cases hc : c.isDigit = true
  · rw [if_pos hc, if_pos hc]
    by_cases hle : value * 10 + (c.toNat - 48) ≤ largest
    · simp [hle]
    · simp [hle, Nat.not_le.mp hle]
  · rw [if_neg hc, if_neg hc]

/-- Further digits make a number no smaller: one that has become too large stays too large. -/
lemma le_ofDigitChars (value : ℕ) (ds : List Char) : value ≤ Nat.ofDigitChars 10 ds value := by
  rw [Nat.ofDigitChars_eq_ofDigitChars_zero]
  exact (Nat.le_mul_of_pos_left value (by positivity)).trans (Nat.le_add_right _ _)

lemma fits_cons_iff : Fits largest value (c :: cs) ↔
    c.isDigit = true ∧ Nat.ofDigitChars 10 [c] value ≤ largest ∧
      Fits largest (Nat.ofDigitChars 10 [c] value) cs := by
  have happend : Nat.ofDigitChars 10 (c :: cs) value =
      Nat.ofDigitChars 10 cs (Nat.ofDigitChars 10 [c] value) :=
    Nat.ofDigitChars_append (l := [c]) (m := cs) ..
  constructor
  · rintro ⟨hdigits, hle⟩
    obtain ⟨hc, hcs⟩ := List.forall_mem_cons.mp hdigits
    rw [happend] at hle
    exact ⟨hc, (le_ofDigitChars _ _).trans hle, hcs, hle⟩
  · rintro ⟨hc, -, hcs, hle⟩
    exact ⟨List.forall_mem_cons.mpr ⟨hc, hcs⟩, happend ▸ hle⟩

/-- Digits that fit are read on, up to what follows them. -/
lemma Fits.readDigits_append (h : Fits largest value ds) (cs : List Char) :
    readDigits largest value (ds ++ cs) = readDigits largest (Nat.ofDigitChars 10 ds value) cs := by
  induction ds generalizing value with
  | nil => rfl
  | cons c ds ih =>
    obtain ⟨hc, hle, hds⟩ := fits_cons_iff.mp h
    rw [List.cons_append, readDigits_cons, if_pos hc, if_pos hle, ih hds, ← Nat.ofDigitChars_append]
    rfl

lemma Fits.readDigits_eq (h : Fits largest value ds) :
    readDigits largest value ds = .ok (Nat.ofDigitChars 10 ds value) := by
  have hread := h.readDigits_append []
  rw [List.append_nil] at hread
  exact hread

lemma Stops.readDigits_eq (h : Stops largest value cs reason) :
    readDigits largest value cs = .error reason := by
  cases h with
  | noDigit before here =>
    rw [before.readDigits_append, readDigits_cons, if_neg (by simp [here])]
  | tooMany before here tooLarge =>
    rw [Nat.ofDigitChars_append] at tooLarge
    rw [before.readDigits_append, readDigits_cons, if_pos here, if_neg (Nat.not_le.mpr tooLarge)]

lemma Stops.cons (hc : Fits largest value [c])
    (h : Stops largest (Nat.ofDigitChars 10 [c] value) cs reason) :
    Stops largest value (c :: cs) reason := by
  have hfits : ∀ {ds : List Char}, Fits largest (Nat.ofDigitChars 10 [c] value) ds →
      Fits largest value (c :: ds) := fun hds =>
    fits_cons_iff.mpr ⟨hc.isDigit c (List.mem_singleton_self c), hc.le, hds⟩
  cases h with
  | noDigit before here => exact Stops.noDigit (hfits before) here
  | tooMany before here tooLarge =>
    refine Stops.tooMany (hfits before) here ?_
    rwa [List.cons_append, ← List.singleton_append, Nat.ofDigitChars_append]

/-- All characters fit, or one of them is the first that does not. -/
lemma fits_or_stops (hvalue : value ≤ largest) (cs : List Char) :
    Fits largest value cs ∨ ∃ reason, Stops largest value cs reason := by
  induction cs generalizing value with
  | nil => exact .inl ⟨by simp, hvalue⟩
  | cons c cs ih =>
    have hnil : Fits largest value [] := ⟨by simp, hvalue⟩
    by_cases hc : c.isDigit = true
    · by_cases hle : Nat.ofDigitChars 10 [c] value ≤ largest
      · rcases ih hle with hfits | ⟨reason, hstops⟩
        · exact .inl (fits_cons_iff.mpr ⟨hc, hle, hfits⟩)
        · exact .inr ⟨reason, hstops.cons ⟨by simpa using hc, hle⟩⟩
      · exact .inr ⟨_, Stops.tooMany hnil hc (Nat.not_le.mp hle)⟩
    · exact .inr ⟨_, Stops.noDigit hnil (by simpa using hc)⟩

/-- Digits are read if they fit. -/
theorem readDigits_eq_ok_iff (hvalue : value ≤ largest) : readDigits largest value cs = .ok n ↔
    Fits largest value cs ∧ Nat.ofDigitChars 10 cs value = n := by
  constructor
  · intro h
    rcases fits_or_stops hvalue cs with hfits | ⟨reason, hstops⟩
    · exact ⟨hfits, Except.ok.inj (hfits.readDigits_eq.symm.trans h)⟩
    · rw [hstops.readDigits_eq] at h
      exact absurd h (by simp)
  · rintro ⟨hfits, rfl⟩
    exact hfits.readDigits_eq

/-- Characters are refused for the first of them that is wrong. -/
theorem readDigits_eq_error_iff (hvalue : value ≤ largest) :
    readDigits largest value cs = .error reason ↔ Stops largest value cs reason := by
  constructor
  · intro h
    rcases fits_or_stops hvalue cs with hfits | ⟨reason', hstops⟩
    · rw [hfits.readDigits_eq] at h
      exact absurd h (by simp)
    · obtain rfl := Except.error.inj (hstops.readDigits_eq.symm.trans h)
      exact hstops
  · exact Stops.readDigits_eq

end Digits

/-! ## Numerals -/

section Numerals

variable {largest n : ℕ} {cs : List Char} {text : String} {reason : NumeralError}

/-- What is wrong with a text that is no numeral of a number up to `largest`. -/
inductive Misread (largest : ℕ) : List Char → NumeralError → Prop where
  | empty : Misread largest [] .empty
  /-- There is nothing behind the sign. -/
  | sign : Misread largest ['+'] .invalidDigit
  | signed {cs : List Char} {reason : NumeralError} (stops : Stops largest 0 cs reason) :
      Misread largest ('+' :: cs) reason
  | plain {cs : List Char} {reason : NumeralError} (unsigned : cs.head? ≠ some '+')
      (stops : Stops largest 0 cs reason) : Misread largest cs reason

lemma IsDigitsOf.head?_ne (h : IsDigitsOf cs n) : cs.head? ≠ some '+' := by
  intro hplus
  exact absurd (h.isDigit _ (List.mem_of_head? hplus)) (by decide)

lemma isDigitsOf_iff_fits (hcs : cs ≠ []) :
    IsDigitsOf cs n ∧ n ≤ largest ↔ Fits largest 0 cs ∧ Nat.ofDigitChars 10 cs 0 = n := by
  constructor
  · rintro ⟨⟨-, hdigits, rfl⟩, hle⟩
    exact ⟨⟨hdigits, hle⟩, rfl⟩
  · rintro ⟨⟨hdigits, hle⟩, rfl⟩
    exact ⟨⟨hcs, hdigits, rfl⟩, hle⟩

lemma isNumeral_signed_iff : IsNumeral ('+' :: cs) n ↔ IsDigitsOf cs n := by
  constructor
  · rintro (h | h)
    · exact absurd rfl h.head?_ne
    · exact h
  · exact .signed

lemma isNumeral_plain_iff (h : cs.head? ≠ some '+') : IsNumeral cs n ↔ IsDigitsOf cs n := by
  constructor
  · rintro (hdigits | hdigits)
    · exact hdigits
    · exact absurd rfl h
  · exact .plain

lemma Stops.ne_nil {value : ℕ} (h : Stops largest value cs reason) : cs ≠ [] := by
  cases h <;> simp

lemma misread_signed_iff (hcs : cs ≠ []) :
    Misread largest ('+' :: cs) reason ↔ Stops largest 0 cs reason := by
  constructor
  · intro h
    cases h with
    | sign => exact absurd rfl hcs
    | signed stops => exact stops
    | plain unsigned => exact absurd rfl unsigned
  · exact .signed

lemma misread_plain_iff (hcs : cs ≠ []) (hhead : cs.head? ≠ some '+') :
    Misread largest cs reason ↔ Stops largest 0 cs reason := by
  constructor
  · intro h
    cases h with
    | empty => exact absurd rfl hcs
    | sign => exact absurd rfl hhead
    | signed => exact absurd rfl hhead
    | plain _ stops => exact stops
  · exact .plain hhead

lemma readUnsigned_of_signed (h : text.toList = '+' :: cs) (hcs : cs ≠ []) :
    readUnsigned largest text = readDigits largest 0 cs := by
  obtain ⟨c, cs, rfl⟩ := List.exists_cons_of_ne_nil hcs
  rw [readUnsigned, h]
  rfl

lemma readUnsigned_of_plain (hne : text.toList ≠ []) (hhead : text.toList.head? ≠ some '+') :
    readUnsigned largest text = readDigits largest 0 text.toList := by
  obtain ⟨c, cs, hcs⟩ := List.exists_cons_of_ne_nil hne
  have hplus : c ≠ '+' := by simpa [hcs] using hhead
  rw [readUnsigned, hcs]
  split <;> simp_all

/-- There is nothing to read, nothing but a sign, or something with a sign in front or without. -/
lemma nil_or_sign_or_signed_or_plain (cs : List Char) :
    cs = [] ∨ cs = ['+'] ∨ (∃ ds, cs = '+' :: ds ∧ ds ≠ []) ∨ cs ≠ [] ∧ cs.head? ≠ some '+' := by
  by_cases hplus : cs.head? = some '+'
  · obtain ⟨ds, rfl⟩ := List.head?_eq_some_iff.mp hplus
    by_cases hds : ds = []
    · exact .inr (.inl (by rw [hds]))
    · exact .inr (.inr (.inl ⟨ds, rfl, hds⟩))
  · by_cases hcs : cs = []
    · exact .inl hcs
    · exact .inr (.inr (.inr ⟨hcs, hplus⟩))

/-- A number that fits is read from its numerals, and nothing else is read. -/
theorem readUnsigned_eq_ok_iff :
    readUnsigned largest text = .ok n ↔ IsNumeral text.toList n ∧ n ≤ largest := by
  rcases nil_or_sign_or_signed_or_plain text.toList with
    hnil | hsign | ⟨cs, hsigned, hcs⟩ | ⟨hne, hhead⟩
  · rw [readUnsigned, hnil, isNumeral_plain_iff (by simp)]
    exact ⟨fun h => absurd h (by simp), fun h => absurd rfl h.1.ne_nil⟩
  · rw [readUnsigned, hsign, isNumeral_signed_iff]
    exact ⟨fun h => absurd h (by simp), fun h => absurd rfl h.1.ne_nil⟩
  · rw [readUnsigned_of_signed hsigned hcs, hsigned, isNumeral_signed_iff,
      isDigitsOf_iff_fits hcs, readDigits_eq_ok_iff (Nat.zero_le _)]
  · rw [readUnsigned_of_plain hne hhead, isNumeral_plain_iff hhead, isDigitsOf_iff_fits hne,
      readDigits_eq_ok_iff (Nat.zero_le _)]

example : readUnsigned largest32 "+004294967295" = .ok 4294967295 := by decide

/-- Any other text is refused for what is wrong with it. -/
theorem readUnsigned_eq_error_iff :
    readUnsigned largest text = .error reason ↔ Misread largest text.toList reason := by
  rcases nil_or_sign_or_signed_or_plain text.toList with
    hnil | hsign | ⟨cs, hsigned, hcs⟩ | ⟨hne, hhead⟩
  · rw [readUnsigned, hnil]
    constructor
    · intro h
      rw [← Except.error.inj h]
      exact .empty
    · rintro (_ | _ | _ | ⟨-, hstops⟩)
      · rfl
      · exact absurd rfl hstops.ne_nil
  · rw [readUnsigned, hsign]
    constructor
    · intro h
      rw [← Except.error.inj h]
      exact .sign
    · rintro (_ | _ | hstops | ⟨hhead, -⟩)
      · rfl
      · exact absurd rfl hstops.ne_nil
      · exact absurd rfl hhead
  · rw [readUnsigned_of_signed hsigned hcs, hsigned, misread_signed_iff hcs,
      readDigits_eq_error_iff (Nat.zero_le _)]
  · rw [readUnsigned_of_plain hne hhead, misread_plain_iff hne hhead,
      readDigits_eq_error_iff (Nat.zero_le _)]

example : readUnsigned largest32 "4294967296" = .error .tooLarge := by decide

end Numerals

end RevenueDesk
