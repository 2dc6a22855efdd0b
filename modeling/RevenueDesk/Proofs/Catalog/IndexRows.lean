/-
# What a row says of an index

The row of an index has its name and the statement that creates it.  The statement names the
columns of the index, and begins in another way if the index is unique.

* `isUnique_iff`: an index is unique if behind blanks its definition begins with two words, in any
  letter case;
* `describes_toIndex`: the index that is made of a row is what the row says of it.
-/
import RevenueDesk.Catalog.Schema
import RevenueDesk.Proofs.Catalog.ColumnList

namespace RevenueDesk.Catalog

/-- A letter stands for a capital: it is the capital itself, or its upper case is.  The upper case
of the dotless i is the capital of the other one. -/
def StandsFor (c capital : Char) : Prop := c.toUpper = capital ∨ c = '\u0131' ∧ capital = 'I'

/-- A definition is that of a unique index: behind blanks it begins with these words, in any
letter case. -/
def DefinesUnique (definition : List Char) : Prop :=
  ∃ blanks start rest, definition = blanks ++ (start ++ rest) ∧
    (∀ c ∈ blanks, Text.isBlank c = true) ∧ List.Forall₂ StandsFor start "CREATE UNIQUE".toList

/-- What holds of the 26 small letters. -/
lemma forall_isSmall {P : Char → Prop} (h : ∀ n < 26, P (Char.ofNat (97 + n))) {c : Char}
    (hc : Text.isSmall c = true) : P c := by
  have hrange : 97 ≤ c.toNat ∧ c.toNat ≤ 122 := by
    simpa [Text.isSmall, Char.le_def, UInt32.le_iff_toNat_le] using hc
  have hletter := h (c.toNat - 97) (by omega)
  rwa [Nat.add_sub_cancel' hrange.1, Char.ofNat_toNat] at hletter

lemma upperLetter_small {c : Char} (h : Text.isSmall c = true) :
    Char.ofNat (c.toNat - 32) = c.toUpper :=
  forall_isSmall (P := fun c => Char.ofNat (c.toNat - 32) = c.toUpper) (by decide) h

lemma toUpper_eq_self {c : Char} (h : ¬ Text.isSmall c = true) : c.toUpper = c := by
  refine dif_neg fun hrange => h ?_
  rw [Text.isSmall, Bool.and_eq_true, decide_eq_true_eq, decide_eq_true_eq]
  exact hrange

lemma upperLetter_eq_iff {c capital : Char} (h : capital ∈ uniqueStart) :
    Text.upperLetter c = capital ↔ StandsFor c capital := by
  have hall : ∀ capital ∈ uniqueStart,
      'S' ≠ capital ∧ '\u0131' ≠ capital ∧ '\u017F' ≠ capital := by decide
  obtain ⟨hs, hdotless, hlong⟩ := hall capital h
  unfold Text.upperLetter StandsFor
  by_cases hsmall : Text.isSmall c = true
  · have hne : c ≠ '\u0131' := by
      rintro rfl
      exact absurd hsmall (by decide)
    simp [hsmall, upperLetter_small hsmall, hne]
  · rw [if_neg hsmall, toUpper_eq_self hsmall]
    by_cases hi : c = '\u0131'
    · simp [hi, hdotless, eq_comm]
    · by_cases hlongs : c = '\u017F'
      · simp [hlongs, hs, hlong]
      · simp [hi, hlongs]

lemma upper_eq_iff {start : List Char} :
    Text.upper start = uniqueStart ↔ List.Forall₂ StandsFor start uniqueStart := by
  have hletters : ∀ capitals, (∀ capital ∈ capitals, capital ∈ uniqueStart) → ∀ start,
      Text.upper start = capitals ↔ List.Forall₂ StandsFor start capitals := by
    intro capitals
    induction capitals with
    | nil => simp [Text.upper]
    | cons capital capitals ih =>
      intro hcapitals start
      obtain ⟨hcapital, hrest⟩ := List.forall_mem_cons.mp hcapitals
      cases start with
      | nil => simp [Text.upper]
      | cons c start =>
        rw [List.forall₂_cons, ← upperLetter_eq_iff hcapital, ← ih hrest start]
        simp [Text.upper]
  exact hletters uniqueStart (fun _ h => h) start

/-- The first of the capitals stands for no blank. -/
lemma StandsFor.isBlank_eq_false {c : Char} (h : StandsFor c 'C') : Text.isBlank c = false := by
  rcases h with h | ⟨-, h⟩
  · by_cases hsmall : Text.isSmall c = true
    · exact forall_isSmall (P := fun c => Text.isBlank c = false) (by decide) hsmall
    · rw [toUpper_eq_self hsmall] at h
      rw [h]
      decide
  · exact absurd h (by decide)

lemma isUnique_iff {definition : String} :
    isUnique definition = true ↔ DefinesUnique definition.toList := by
  rw [isUnique, Option.isSome_iff_exists]
  simp only [Text.dropStart?_eq_some_iff]
  constructor
  · rintro ⟨capitals, hupper⟩
    obtain ⟨start, rest, hsplit, hstart, -⟩ := List.map_eq_append_iff.mp hupper
    refine ⟨definition.toList.takeWhile Text.isBlank, start, rest, ?_,
      fun c hc => List.mem_takeWhile_imp hc, upper_eq_iff.mp hstart⟩
    rw [← hsplit, List.takeWhile_append_dropWhile]
  · rintro ⟨blanks, start, rest, hsplit, hblanks, hstart⟩
    have hhead : ∀ c ∈ (start ++ rest).head?, Text.isBlank c = false := by
      cases hstart with
      | cons hc _ => simpa using hc.isBlank_eq_false
    refine ⟨Text.upper rest, ?_⟩
    rw [hsplit, (Text.span_eq hblanks hhead).2, ← upper_eq_iff.mpr hstart]
    exact List.map_append

/-- An index is what its row says of it. -/
structure Describes (row : IndexRow) (index : Index) : Prop where
  name_eq : index.name = row.index
  columns : NamesColumns row.definition.toList index.columns
  unique_iff : index.unique = true ↔ DefinesUnique row.definition.toList

lemma describes_toIndex (row : IndexRow) : Describes row row.toIndex :=
  ⟨rfl, namesColumns_indexColumns row.definition, isUnique_iff⟩

end RevenueDesk.Catalog
