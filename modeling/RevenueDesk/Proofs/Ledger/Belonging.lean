/-
# What a row belongs to

A field names one value, or lists several with commas between them.  Its values are told by
what stands in the text (`Names`, `Lists`), and a row belongs to the values of its field, or to
`Unassigned` if it has none (`BelongsTo`).  These are the keys that the row is booked under:

* `belongsTo_names_iff`, `belongsTo_lists_iff`: a row belongs to its keys and to nothing else;
* `length_keysOf`: a field that lists values gives one key for each, and at least one;
* `keysOf_of_no_comma`: a field without commas gives the same key in both ways.
-/
import Mathlib.Data.Set.Card
import Mathlib.Data.String.Basic
import RevenueDesk.Ledger.Group
import RevenueDesk.Proofs.Ledger.Collecting
import RevenueDesk.Proofs.Text.Parts
import RevenueDesk.Proofs.Text.Trimming

namespace RevenueDesk.Ledger

/-- The field is the value, with blanks at both ends at most, and not blank. -/
def Names (field : Option String) (value : String) : Prop :=
  value ≠ "" ∧ ∃ text, field = some text ∧ Text.Trims text.toList value.toList

/-- The value stands in the field between two commas, or between a comma and an end, with
blanks at both ends at most, and is not blank. -/
def Lists (field : Option String) (value : String) : Prop :=
  value ≠ "" ∧ ∃ text part, field = some text ∧
    Text.IsPart (· == ',') text.toList part ∧ Text.Trims part value.toList

/-- Whoever has the values `values` belongs to each of them, and to `Unassigned` if there are
none. -/
def BelongsTo (values : String → Prop) (key : String) : Prop :=
  values key ∨ key = unassigned ∧ ∀ value, ¬ values value

/-- The number of different values that a field lists. -/
noncomputable def valueCount (field : Option String) : ℕ := {value | Lists field value}.ncard

variable {field : Option String} {key value : String}

/-! ## A field with one value -/

lemma names_iff : Names field value ↔ value ≠ "" ∧ Text.trimmed (field.getD "") = value := by
  cases field with
  | none =>
    have hblank : Text.trimmed "" = "" := by decide
    simp only [Names, Option.getD_none, hblank, reduceCtorEq, false_and, exists_false, and_false,
      false_iff, not_and]
    exact fun hne heq => hne heq.symm
  | some text =>
    simp [Names, Text.trims_toList_iff]

/-- A field names no value if it is missing or blank. -/
lemma not_names_iff : (∀ value, ¬ Names field value) ↔
    ∀ text, field = some text → ∀ c ∈ text.toList, Text.isBlank c = true := by
  constructor
  · rintro hnone text rfl
    rw [← Text.trim_eq_nil_iff]
    by_contra hne
    refine hnone (Text.trimmed text) (names_iff.mpr ⟨fun hblank => hne ?_, rfl⟩)
    rwa [← String.toList_eq_nil_iff, Text.toList_trimmed] at hblank
  · rintro hblank value ⟨hne, text, rfl, htrims⟩
    rw [Text.trims_iff, Text.trim_eq_nil_iff.mpr (hblank text rfl)] at htrims
    exact hne (String.toList_eq_nil_iff.mp htrims.symm)

/-- A row belongs to its key and to nothing else. -/
theorem belongsTo_names_iff : BelongsTo (Names field) key ↔ keyOf field = key := by
  simp only [BelongsTo, names_iff, keyOf]
  by_cases hblank : Text.trimmed (field.getD "") = ""
  · simp only [hblank, String.isEmpty_iff, if_true]
    constructor
    · rintro (⟨hne, heq⟩ | ⟨heq, -⟩)
      · exact absurd heq.symm hne
      · exact heq.symm
    · rintro rfl
      exact Or.inr ⟨rfl, fun value ⟨hne, heq⟩ => hne heq.symm⟩
  · simp only [String.isEmpty_iff, hblank, if_false]
    constructor
    · rintro (⟨-, heq⟩ | ⟨-, hnone⟩)
      · exact heq
      · exact absurd ⟨hblank, rfl⟩ (hnone _)
    · rintro rfl
      exact Or.inl ⟨hblank, rfl⟩

instance : Decidable (BelongsTo (Names field) key) :=
  decidable_of_iff _ belongsTo_names_iff.symm

/-! ## A field with several values -/

/-- The different values of a field, in the order in which they first stand in it. -/
def valuesOf (field : Option String) : List String :=
  (((Text.splitWhere (· == ',') (field.getD "").toList).map fun part =>
    String.ofList (Text.trim part)).filter (!·.isEmpty)).eraseDups

lemma keysOf_eq : keysOf field = if valuesOf field = [] then [unassigned] else valuesOf field := by
  unfold keysOf valuesOf
  dsimp only
  split
  · rename_i hnil
    rw [if_pos hnil]
  · rename_i hnil
    rw [if_neg hnil]

lemma nodup_valuesOf : (valuesOf field).Nodup := Keyed.nodup_eraseDups _

lemma mem_valuesOf : value ∈ valuesOf field ↔ Lists field value := by
  have hmem : value ∈ valuesOf field ↔ value ≠ "" ∧
      ∃ part ∈ Text.splitWhere (· == ',') (field.getD "").toList,
        String.ofList (Text.trim part) = value := by
    simp [valuesOf, and_comm]
  rw [hmem, Lists]
  simp only [Text.mem_splitWhere_iff, Text.trims_iff, String.ofList_eq]
  refine and_congr_right fun hne => ?_
  cases field with
  | none =>
    -- a missing field has no parts but the empty one
    simp only [Option.getD_none, reduceCtorEq, false_and, exists_false, iff_false, not_exists,
      not_and]
    intro part hpart htrim
    obtain ⟨before, after, hempty, -⟩ := hpart.around
    have hnil : before = [] ∧ part = [] ∧ after = [] := by simpa using hempty.symm
    obtain ⟨-, rfl, -⟩ := hnil
    exact hne (String.toList_eq_nil_iff.mp htrim.symm)
  | some text => simp

/-- A row belongs to its keys and to nothing else. -/
theorem belongsTo_lists_iff : BelongsTo (Lists field) key ↔ key ∈ keysOf field := by
  simp only [BelongsTo, ← mem_valuesOf, keysOf_eq, ← List.eq_nil_iff_forall_not_mem]
  by_cases hnil : valuesOf field = []
  · simp [hnil]
  · simp [hnil]

instance : Decidable (BelongsTo (Lists field) key) :=
  decidable_of_iff _ belongsTo_lists_iff.symm

lemma nodup_keysOf : (keysOf field).Nodup := by
  rw [keysOf_eq]
  split
  · exact List.nodup_singleton _
  · exact nodup_valuesOf

lemma length_valuesOf : (valuesOf field).length = valueCount field := by
  have hset : {value | Lists field value} = ((valuesOf field).toFinset : Set String) := by
    ext value
    simp [mem_valuesOf]
  rw [valueCount, hset, Set.ncard_coe_finset, List.toFinset_card_of_nodup nodup_valuesOf]

/-- There is one key for each different value, and at least one. -/
theorem length_keysOf : (keysOf field).length = max 1 (valueCount field) := by
  rw [← length_valuesOf, keysOf_eq]
  split
  · rename_i hnil
    simp [hnil]
  · rename_i hnil
    have hpos := List.length_pos_iff.mpr hnil
    omega

/-- Where no comma stands, a field that lists values names one. -/
theorem keysOf_of_no_comma (h : ∀ text, field = some text → ',' ∉ text.toList) :
    keysOf field = [keyOf field] := by
  have hwhole : Text.splitWhere (· == ',') (field.getD "").toList = [(field.getD "").toList] := by
    refine Text.splitWhere_of_forall_not fun c hc => ?_
    cases field with
    | none => simp at hc
    | some text =>
      have hne : c ≠ ',' := by
        rintro rfl
        exact h text rfl hc
      simpa using hne
  have hvalues : valuesOf field =
      if Text.trimmed (field.getD "") = "" then [] else [Text.trimmed (field.getD "")] := by
    rw [valuesOf, hwhole, List.map_singleton, ← Text.trimmed]
    split
    · rename_i hblank
      simp [hblank]
    · rename_i hblank
      simp [hblank, List.eraseDups_cons]
  rw [keysOf_eq, hvalues, keyOf]
  by_cases hblank : Text.trimmed (field.getD "") = ""
  · simp [hblank]
  · simp [hblank]

end RevenueDesk.Ledger
