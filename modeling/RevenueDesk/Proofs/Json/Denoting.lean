/-
# Values that denote something

A value that has been read as it is written denotes another one, unless an embedded text stands
in it that is none: an object that begins with the name of embedded texts, but has further members,
or holds something that is not a text, or a text that is not JSON.  All other values are
*readable* (`denoted?_isSome_iff`), whatever is in them.
-/
import Mathlib.Tactic.Common
import RevenueDesk.Json.Reader

namespace RevenueDesk.Json

/-- Every embedded text in the value can be read. -/
inductive Readable : Json → Prop where
  | null : Readable .null
  | bool (b : Bool) : Readable (.bool b)
  | number (n : JsonNumber) : Readable (.number n)
  | string (s : String) : Readable (.string s)
  | array {xs : List Json} (items : ∀ x ∈ xs, Readable x) : Readable (.array xs)
  | object {ms : List (String × Json)} (plain : ∀ m ∈ ms.head?, m.1 ≠ embeddedName)
      (members : ∀ m ∈ ms, Readable m.2) : Readable (.object ms)
  | embedded {text : String} (parsed : (parse? text).isSome) :
      Readable (.object [(embeddedName, .string text)])

lemma isEmbedded_eq_false_iff {ms : List (String × Json)} :
    isEmbedded ms = false ↔ ∀ m ∈ ms.head?, m.1 ≠ embeddedName := by
  cases ms <;> simp [isEmbedded]

lemma denotedItems?_isSome_iff {xs : List Json} :
    (denotedItems? xs).isSome ↔ ∀ x ∈ xs, (denoted? x).isSome := by
  induction xs with
  | nil => simp [denotedItems?]
  | cons x xs ih =>
    rw [List.forall_mem_cons, ← ih, denotedItems?]
    cases denoted? x <;> cases denotedItems? xs <;> simp

lemma denotedMembers?_isSome_iff {ms : List (String × Json)} :
    (denotedMembers? ms).isSome ↔ ∀ m ∈ ms, (denoted? m.2).isSome := by
  induction ms with
  | nil => simp [denotedMembers?]
  | cons m ms ih =>
    rw [List.forall_mem_cons, ← ih, denotedMembers?]
    cases denoted? m.2 <;> cases denotedMembers? ms <;> simp

lemma denoted?_array_isSome_iff {xs : List Json} :
    (denoted? (.array xs)).isSome ↔ ∀ x ∈ xs, (denoted? x).isSome := by
  rw [denoted?, Option.isSome_map, denotedItems?_isSome_iff]

lemma Readable.denoted?_isSome {v : Json} (h : Readable v) : (denoted? v).isSome := by
  induction h with
  | null => rfl
  | bool b => rfl
  | number n => rfl
  | string s => rfl
  | array _ ih => exact denoted?_array_isSome_iff.mpr ih
  | object plain _ ih =>
    rw [denoted?, isEmbedded_eq_false_iff.mpr plain]
    simpa [denotedMembers?_isSome_iff] using ih
  | embedded parsed => simpa [denoted?, isEmbedded, embeddedText?] using parsed

lemma readable_of_denoted?_isSome : ∀ {v : Json}, (denoted? v).isSome → Readable v
  | .null, _ => .null
  | .bool b, _ => .bool b
  | .number n, _ => .number n
  | .string s, _ => .string s
  | .array _, h =>
    .array fun x hx => readable_of_denoted?_isSome (denoted?_array_isSome_iff.mp h x hx)
  | .object ms, h => by
    rw [denoted?] at h
    split at h
    · rename_i hembedded
      -- an embedded text is the only member
      match ms with
      | [] => simp [isEmbedded] at hembedded
      | [(name, .string text)] =>
        obtain rfl : name = embeddedName := by simpa [isEmbedded] using hembedded
        exact .embedded (by simpa [embeddedText?] using h)
      | [(_, .null)] | [(_, .bool _)] | [(_, .number _)] | [(_, .array _)] | [(_, .object _)]
      | _ :: _ :: _ => simp [embeddedText?] at h
    · rename_i hplain
      have hmembers : ∀ m ∈ ms, (denoted? m.2).isSome := by
        simpa [denotedMembers?_isSome_iff] using h
      exact .object (isEmbedded_eq_false_iff.mp (by simpa using hplain)) fun m hm =>
        readable_of_denoted?_isSome (hmembers m hm)
termination_by v => sizeOf v
decreasing_by
  · have := List.sizeOf_lt_of_mem hx
    simp only [Json.array.sizeOf_spec]
    omega
  · have hlt := List.sizeOf_lt_of_mem hm
    obtain ⟨name, v⟩ := m
    simp only [Json.object.sizeOf_spec, Prod.mk.sizeOf_spec] at hlt ⊢
    omega

/-- A value denotes something exactly if every embedded text in it can be read. -/
theorem denoted?_isSome_iff {v : Json} : (denoted? v).isSome ↔ Readable v :=
  ⟨readable_of_denoted?_isSome, Readable.denoted?_isSome⟩

end RevenueDesk.Json
