/-
# What a variable may be

A setting is a text or a number, and its format says which environment variables make sense: the
variable of a text is trimmed, that of a number is a numeral that fits a number of bits, and one
that holds no text has a default or is missing.  The formats speak of what the variables stand for
(`Format.Reads`) and of what is wrong with them (`Format.Complains`), and the variables are read
accordingly (`Format.read_eq_ok_iff`, `Format.read_eq_error_iff`).
-/
import RevenueDesk.Proofs.Outcome
import RevenueDesk.Proofs.Settings.Unsigned
import RevenueDesk.Proofs.Text.Trimming

namespace RevenueDesk.Settings

open Text (Trims toList_trimmed trims_trimmed trims_toList_iff)
open Outcome (map_eq_ok_iff map_eq_error_iff)

/-- What a variable is read as. -/
inductive Value where
  | text (s : String)
  | number (n : ℕ)

/-- What a variable may be, with its default. -/
inductive Format where
  /-- Any text, which is taken as it is.  The variable has to be set to one. -/
  | required
  | text (default : String)
  | number (default bits : ℕ)

namespace Format

/-- What a variable stands for, by what the environment has under its name. -/
inductive Reads : Format → Held → Value → Prop where
  | required (raw : String) : Reads .required (.text raw) (.text raw)
  | unsetText (default : String) : Reads (.text default) .unset (.text default)
  | garbledText (default shown : String) :
      Reads (.text default) (.notUnicode shown) (.text default)
  | text {default raw text : String} (trims : Trims raw.toList text.toList) :
      Reads (.text default) (.text raw) (.text text)
  | unsetNumber (default bits : ℕ) : Reads (.number default bits) .unset (.number default)
  | garbledNumber (default bits : ℕ) (shown : String) :
      Reads (.number default bits) (.notUnicode shown) (.number default)
  | number {default bits n : ℕ} {raw : String} {text : List Char} (trims : Trims raw.toList text)
      (numeral : IsNumeral text n) (fits : n < 2 ^ bits) :
      Reads (.number default bits) (.text raw) (.number n)

/-- What is wrong with a variable that stands for nothing. -/
inductive Complains (key : String) : Format → Held → SettingsError → Prop where
  | unset : Complains key .required .unset (.missing key)
  | garbled (shown : String) : Complains key .required (.notUnicode shown) (.notUnicode key shown)
  | number {default bits : ℕ} {raw : String} {text : List Char} {reason : NumeralError}
      (trims : Trims raw.toList text) (misread : Misread (2 ^ bits - 1) text reason) :
      Complains key (.number default bits) (.text raw) (.invalid key raw reason)

/-- Read a variable with this format. -/
def read (key : String) (held : Held) : Format → Except SettingsError Value
  | .required =>
    match held with
    | .text raw => .ok (.text raw)
    | .unset => .error (.missing key)
    | .notUnicode shown => .error (.notUnicode key shown)
  | .text default => (readVariable key held.text? default .ok).map .text
  | .number default bits =>
    (readVariable key held.text? default (readUnsigned (2 ^ bits - 1))).map .number

variable {α : Type} {format : Format} {key raw : String} {held : Held} {x : Value}
  {e : SettingsError}

lemma readVariable_some_eq_ok_iff {default a : α} {f : String → Except NumeralError α} :
    readVariable key (some raw) default f = .ok a ↔ f (Text.trimmed raw) = .ok a := by
  rw [readVariable]
  cases f (Text.trimmed raw) <;> simp

lemma readVariable_some_eq_error_iff {default : α} {f : String → Except NumeralError α} :
    readVariable key (some raw) default f = .error e ↔
      ∃ reason, f (Text.trimmed raw) = .error reason ∧ .invalid key raw reason = e := by
  rw [readVariable]
  cases f (Text.trimmed raw) <;> simp

lemma read_required_eq_ok_iff : required.read key held = .ok x ↔ required.Reads held x := by
  cases held with
  | unset => exact ⟨fun h => absurd h (by simp [read]), by rintro ⟨⟩⟩
  | notUnicode shown => exact ⟨fun h => absurd h (by simp [read]), by rintro ⟨⟩⟩
  | text raw =>
    constructor
    · intro h
      rw [← Except.ok.inj h]
      exact .required raw
    · rintro ⟨⟩
      rfl

lemma read_text_eq_ok_iff {default : String} :
    (text default).read key held = .ok x ↔ (text default).Reads held x := by
  rw [read, map_eq_ok_iff]
  cases held with
  | unset =>
    constructor
    · rintro ⟨text, htext, rfl⟩
      rw [← Except.ok.inj htext]
      exact .unsetText default
    · rintro ⟨⟩
      exact ⟨default, rfl, rfl⟩
  | notUnicode shown =>
    constructor
    · rintro ⟨text, htext, rfl⟩
      rw [← Except.ok.inj htext]
      exact .garbledText default shown
    · rintro ⟨⟩
      exact ⟨default, rfl, rfl⟩
  | text raw =>
    simp only [Held.text?, readVariable_some_eq_ok_iff]
    constructor
    · rintro ⟨text, htext, rfl⟩
      rw [← Except.ok.inj htext]
      exact .text (trims_trimmed raw)
    · rintro (_ | _ | _ | trims)
      exact ⟨_, congrArg _ (trims_toList_iff.mp trims), rfl⟩

lemma read_number_eq_ok_iff {default bits : ℕ} :
    (number default bits).read key held = .ok x ↔ (number default bits).Reads held x := by
  rw [read, map_eq_ok_iff]
  cases held with
  | unset =>
    constructor
    · rintro ⟨n, hn, rfl⟩
      rw [← Except.ok.inj hn]
      exact .unsetNumber default bits
    · rintro ⟨⟩
      exact ⟨default, rfl, rfl⟩
  | notUnicode shown =>
    constructor
    · rintro ⟨n, hn, rfl⟩
      rw [← Except.ok.inj hn]
      exact .garbledNumber default bits shown
    · rintro ⟨⟩
      exact ⟨default, rfl, rfl⟩
  | text raw =>
    simp only [Held.text?, readVariable_some_eq_ok_iff, readUnsigned_eq_ok_iff, toList_trimmed,
      Nat.le_sub_one_iff_lt (Nat.two_pow_pos bits)]
    constructor
    · rintro ⟨n, ⟨numeral, fits⟩, rfl⟩
      exact .number (Text.trims_trim _) numeral fits
    · rintro (_ | _ | _ | _ | _ | _ | ⟨trims, numeral, fits⟩)
      rw [Text.trims_iff.mp trims]
      exact ⟨_, ⟨numeral, fits⟩, rfl⟩

/-- A variable is read as what it stands for. -/
theorem read_eq_ok_iff : format.read key held = .ok x ↔ format.Reads held x := by
  cases format with
  | required => exact read_required_eq_ok_iff
  | text default => exact read_text_eq_ok_iff
  | number default bits => exact read_number_eq_ok_iff

lemma read_required_eq_error_iff :
    required.read key held = .error e ↔ required.Complains key held e := by
  cases held with
  | unset =>
    constructor
    · intro h
      rw [← Except.error.inj h]
      exact .unset
    · rintro ⟨⟩
      rfl
  | notUnicode shown =>
    constructor
    · intro h
      rw [← Except.error.inj h]
      exact .garbled shown
    · rintro ⟨⟩
      rfl
  | text raw => exact ⟨fun h => absurd h (by simp [read]), by rintro ⟨⟩⟩

lemma read_number_eq_error_iff {default bits : ℕ} : (number default bits).read key held = .error e ↔
    (number default bits).Complains key held e := by
  rw [read, map_eq_error_iff]
  cases held with
  | unset => exact ⟨fun h => absurd h (by simp [readVariable, Held.text?]), by rintro ⟨⟩⟩
  | notUnicode shown =>
    exact ⟨fun h => absurd h (by simp [readVariable, Held.text?]), by rintro ⟨⟩⟩
  | text raw =>
    simp only [Held.text?, readVariable_some_eq_error_iff, readUnsigned_eq_error_iff,
      toList_trimmed]
    constructor
    · rintro ⟨reason, misread, rfl⟩
      exact .number (Text.trims_trim _) misread
    · rintro (_ | _ | ⟨trims, misread⟩)
      rw [Text.trims_iff.mp trims]
      exact ⟨_, misread, rfl⟩

/-- The reading of a variable fails for what is wrong with it. -/
theorem read_eq_error_iff : format.read key held = .error e ↔ format.Complains key held e := by
  cases format with
  | required => exact read_required_eq_error_iff
  | text default =>
    -- a text is never refused
    rw [read, map_eq_error_iff]
    refine ⟨fun h => absurd h ?_, by rintro ⟨⟩⟩
    cases held <;> simp [readVariable, Held.text?]
  | number default bits => exact read_number_eq_error_iff

/-! ## Values that make sense -/

/-- `raw` is a numeral of a number that fits `bits` bits, but for blanks at its ends. -/
def IsNumber (bits : ℕ) (raw : String) : Prop :=
  ∃ text n, Trims raw.toList text ∧ IsNumeral text n ∧ n < 2 ^ bits

lemma reads_required_iff : (∃ x, Format.required.Reads held x) ↔ ∃ raw, held = .text raw := by
  constructor
  · rintro ⟨_, ⟨raw⟩⟩
    exact ⟨raw, rfl⟩
  · rintro ⟨raw, rfl⟩
    exact ⟨_, .required raw⟩

/-- Any text makes sense. -/
lemma reads_text (default : String) (held : Held) : ∃ x, (text default).Reads held x := by
  cases held with
  | unset => exact ⟨_, .unsetText default⟩
  | notUnicode shown => exact ⟨_, .garbledText default shown⟩
  | text raw => exact ⟨_, .text (trims_trimmed raw)⟩

lemma reads_number_iff {default bits : ℕ} :
    (∃ x, (number default bits).Reads held x) ↔ ∀ raw, held = .text raw → IsNumber bits raw := by
  cases held with
  | unset => exact ⟨fun _ => by simp, fun _ => ⟨_, .unsetNumber default bits⟩⟩
  | notUnicode shown =>
    exact ⟨fun _ => by simp, fun _ => ⟨_, .garbledNumber default bits shown⟩⟩
  | text raw =>
    constructor
    · rintro ⟨_, _ | _ | _ | _ | _ | _ | ⟨trims, numeral, fits⟩⟩ _ ⟨⟩
      exact ⟨_, _, trims, numeral, fits⟩
    · intro h
      obtain ⟨text, n, trims, numeral, fits⟩ := h raw rfl
      exact ⟨_, .number trims numeral fits⟩

/-- A variable stands for one thing only. -/
lemma Reads.unique {y : Value} (hx : format.Reads held x) (hy : format.Reads held y) : x = y := by
  have hread : format.read "" held = .ok x := read_eq_ok_iff.mpr hx
  rw [read_eq_ok_iff.mpr hy] at hread
  exact (Except.ok.inj hread).symm

/-- Something is wrong only with variables that stand for nothing. -/
lemma Complains.not_reads (h : format.Complains key held e) : ¬ ∃ x, format.Reads held x := by
  rintro ⟨x, hx⟩
  have hok : format.read key held = .ok x := read_eq_ok_iff.mpr hx
  rw [read_eq_error_iff.mpr h] at hok
  exact absurd hok (by simp)

/-- What is said of a variable: its name, and the text that it is set to. -/
def wording (key : String) : Held → String
  | .unset | .notUnicode _ => key ++ " deve ser definida"
  | .text raw => key ++ " tem um valor inválido: '" ++ raw ++ "'"

lemma Complains.message_eq (h : format.Complains key held e) : e.message = wording key held := by
  cases h <;> rfl

end Format

end RevenueDesk.Settings
