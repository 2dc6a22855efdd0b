/-
# The values that go with a query

A query is handed to the database with the values of its positions.  `Denotes` says which of the
values that the database knows stand for which parameters.  Every parameter is handed over as a
value that denotes it, but for one kind: a whole number beyond the signed type is handed over as
the double that it is taken for, and denoted only if it is one (`handedOver_ofJson`).

`ValuesByName` ties the values to the names in the text: the value at a position is that of the
name for which the position is written.
-/
import Mathlib
import RevenueDesk.Proofs.Json.InRange
import RevenueDesk.Proofs.Json.WholeNumbers
import RevenueDesk.Proofs.Sql.Capture

namespace RevenueDesk.Sql

open Json (InRange)
open JsonNumber (largestSigned largestWhole leastWhole)

/-- A value that is handed to the database denotes a JSON value. -/
inductive Denotes : BoundValue → Json → Prop where
  | bool (b : Bool) : Denotes (.bool b) (.bool b)
  | int8 (n : ℤ) (least : leastWhole ≤ n) (largest : n ≤ largestSigned) :
      Denotes (.int8 n) (.number (.whole n))
  /-- A whole number may be handed over as a double, if the double is this number. -/
  | whole (x : Binary64) (n : ℤ) (finite : x.isFinite = true) (value_eq : x.value = (n : ℚ)) :
      Denotes (.float8 x) (.number (.whole n))
  | float8 (x : Binary64) : Denotes (.float8 x) (.number (.real x))
  | text (s : String) : Denotes (.text s) (.string s)
  | array (items : List Json) : Denotes (.jsonb (.array items)) (.array items)
  | object (members : List (String × Json)) : Denotes (.jsonb (.object members)) (.object members)

/-- A whole number beyond the signed type that is no double. -/
def Coarse (v : Json) : Prop := ∃ n : ℤ, v = .number (.whole n) ∧ largestSigned < n ∧ ¬ 2048 ∣ n

/-- What is handed over for a parameter. -/
structure HandedOver (v : Json) (b : BoundValue) : Prop where
  denotes_iff : Denotes b v ↔ ¬ Coarse v
  /-- Beyond the signed type it is the nearest double. -/
  rounded : ∀ n : ℤ, v = .number (.whole n) → largestSigned < n →
    ∃ x, b = .float8 x ∧ x.isFinite = true ∧ Rounds 2048 n x.value

/-- The values that go with a text, by the names in the tokens that the text is written for. -/
structure ValuesByName (parameters : List (String × Json)) (ts : List Token) (text : List Char)
    (values : List BoundValue) : Prop where
  /-- The position of a name is its rank, and is written in its place. -/
  text_eq : values ≠ [] →
    text = ts.flatMap (written parameters (rank (boundNames parameters ts)))
  /-- Every name with a value other than null has a position, and there are no others. -/
  length_eq : values.length = (boundNames parameters ts).toFinset.card
  /-- The value at a position is that of the one name that has the position. -/
  value : ∀ k b, values[k]? = some b → ∃ name v, name ∈ references ts ∧
    (∀ other ∈ boundNames parameters ts,
      rank (boundNames parameters ts) other = k + 1 ↔ other = name) ∧
    Keyed.find? name parameters = some v ∧ v ≠ .null ∧ HandedOver v b
  notNull : .jsonb .null ∉ values

/-! ## One value -/

section Handing

variable {v : Json}

lemma ofJson_whole_of_le {n : ℤ} (h : n ≤ largestSigned) :
    BoundValue.ofJson (.number (.whole n)) = .int8 n := by
  simp only [BoundValue.ofJson, JsonNumber.toSigned?, if_pos h]

lemma ofJson_whole_of_lt {n : ℤ} (h : largestSigned < n) :
    BoundValue.ofJson (.number (.whole n)) = .float8 (JsonNumber.toBinary64 (.whole n)) := by
  simp only [BoundValue.ofJson, JsonNumber.toSigned?, if_neg (not_le.mpr h)]

lemma not_coarse (h : ∀ n : ℤ, v = .number (.whole n) → n ≤ largestSigned) : ¬ Coarse v := by
  rintro ⟨n, hv, hlt, -⟩
  exact absurd (h n hv) (not_le.mpr hlt)

/-- What is denoted and fits the signed type is handed over as it should be. -/
lemma handedOver_of_denotes {b : BoundValue} (hdenotes : Denotes b v)
    (h : ∀ n : ℤ, v = .number (.whole n) → n ≤ largestSigned) : HandedOver v b where
  denotes_iff := ⟨fun _ => not_coarse h, fun _ => hdenotes⟩
  rounded n hv hlt := absurd (h n hv) (not_le.mpr hlt)

/-- Beyond the signed type a number is denoted exactly if it is taken for itself. -/
lemma handedOver_whole {n : ℤ} (hlo : largestSigned < n) (hhi : n ≤ largestWhole) :
    HandedOver (.number (.whole n)) (.float8 (JsonNumber.toBinary64 (.whole n))) := by
  obtain ⟨hfinite, -, htaken⟩ := JsonNumber.takenFor_toBinary64 hlo hhi
  refine ⟨?_, ?_⟩
  · have hcoarse : Coarse (.number (.whole n)) ↔ ¬ JsonNumber.TakenFor n n := by
      rw [JsonNumber.takenFor_self_iff, or_iff_right (not_le.mpr hlo)]
      constructor
      · rintro ⟨m, hm, -, hdvd⟩
        rwa [JsonNumber.whole.inj (Json.number.inj hm)]
      · exact fun hdvd => ⟨n, rfl, hlo, hdvd⟩
    rw [hcoarse, not_not]
    constructor
    · rintro ⟨⟩
      rename_i hvalue
      rwa [hvalue] at htaken
    · exact fun hself => .whole _ n hfinite (htaken.unique hself)
  · rintro m hm -
    obtain rfl := JsonNumber.whole.inj (Json.number.inj hm)
    exact ⟨_, rfl, hfinite, (JsonNumber.takenFor_of_lt hlo).mp htaken⟩

/-- What is handed over for a parameter denotes it, unless it is a whole number beyond the signed
type that is no double. -/
theorem handedOver_ofJson (hne : v ≠ .null) (hrange : InRange v) :
    HandedOver v (.ofJson v) := by
  cases v with
  | null => exact absurd rfl hne
  | bool b => exact handedOver_of_denotes (.bool b) (by simp)
  | string s => exact handedOver_of_denotes (.text s) (by simp)
  | array items => exact handedOver_of_denotes (.array items) (by simp)
  | object members => exact handedOver_of_denotes (.object members) (by simp)
  | number n =>
    cases n with
    | real x => exact handedOver_of_denotes (.float8 x) (by simp)
    | whole n =>
      obtain ⟨hleast, hlargest⟩ : n ∈ Set.Icc leastWhole largestWhole := by
        cases hrange
        assumption
      rcases le_or_gt n largestSigned with hle | hlt
      · rw [ofJson_whole_of_le hle]
        refine handedOver_of_denotes (.int8 n hleast hle) ?_
        rintro _ hn
        rwa [← JsonNumber.whole.inj (Json.number.inj hn)]
      · rw [ofJson_whole_of_lt hlt]
        exact handedOver_whole hlt hlargest

lemma ofJson_ne_null (hne : v ≠ .null) : BoundValue.ofJson v ≠ .jsonb .null := by
  cases v with
  | null => exact absurd rfl hne
  | number n => cases h : n.toSigned? <;> simp [BoundValue.ofJson, h]
  | _ => simp [BoundValue.ofJson]

end Handing

/-! ## All values -/

section Binding

variable {parameters : List (String × Json)} {sql : String} {p : Prepared}

lemma boundNames_nil (ts : List Token) : boundNames [] ts = [] :=
  List.filter_eq_nil_iff.mpr fun _ _ => by simp [isBound]

/-- The value at a position is that of its name. -/
lemma Numbered.exists_name {ts : List Token} {k : ℕ} {v : Json} (h : Numbered parameters ts p)
    (hv : p.values[k]? = some v) : ∃ name ∈ boundNames parameters ts,
      rank (boundNames parameters ts) name = k + 1 ∧ Keyed.find? name parameters = some v := by
  obtain ⟨hk, -⟩ := List.getElem?_eq_some_iff.mp hv
  obtain ⟨name, hname, hrank⟩ := h.used (k + 1) ⟨by omega, hk⟩
  refine ⟨name, hname, hrank, ?_⟩
  rw [← h.value name hname, hrank, Nat.add_sub_cancel, hv]

/-- The values that go with a query are those of the names in it. -/
theorem valuesByName (hrange : ∀ name v, Keyed.find? name parameters = some v → InRange v)
    (h : bind parameters sql = .ok p) :
    ValuesByName parameters (tokens sql.toList) p.text.toList (p.values.map .ofJson) := by
  rcases eq_or_ne parameters [] with rfl | hp
  · -- without parameters there are no values
    obtain rfl := Except.ok.inj h
    exact ⟨by simp, by simp [boundNames_nil], by simp, by simp⟩
  · obtain ⟨-, hnumbered⟩ := numbered_of_bind hp h
    refine ⟨fun _ => hnumbered.text, by rw [List.length_map, hnumbered.length], ?_, ?_⟩
    · intro k b hb
      rw [List.getElem?_map] at hb
      obtain ⟨v, hv, rfl⟩ := Option.map_eq_some_iff.mp hb
      obtain ⟨name, hname, hrank, hfind⟩ := hnumbered.exists_name hv
      have hne : v ≠ .null := fun hnull => hnumbered.notNull (hnull ▸ List.mem_of_getElem? hv)
      refine ⟨name, v, (mem_boundNames.mp hname).1, fun other hother => ?_, hfind, hne,
        handedOver_ofJson hne (hrange name v hfind)⟩
      rw [← hrank]
      exact ⟨rank_injOn hother, fun heq => heq ▸ rfl⟩
    · intro hnull
      obtain ⟨v, hv, heq⟩ := List.mem_map.mp hnull
      exact ofJson_ne_null (fun hvnull => hnumbered.notNull (hvnull ▸ hv)) heq

end Binding

end RevenueDesk.Sql
