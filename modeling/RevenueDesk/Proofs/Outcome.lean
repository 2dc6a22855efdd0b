/-
# Steps that may fail

A result is a value or an error, and each of them has come from somewhere: `map_eq_ok_iff` and
`bind_eq_ok_iff` tell where a value comes from, and `bind_eq_error_iff` the same of an error.  When
something is done to the items of a list one after the other, there is a value for every item, or
the error is that of the first item for which there is none (`mapM_eq_error_iff`).
-/
import Mathlib.Tactic.Common

namespace RevenueDesk.Outcome

section Steps

variable {α β ε : Type} {r : Except ε α} {b : β} {e : ε}

lemma map_eq_ok_iff {f : α → β} : r.map f = .ok b ↔ ∃ a, r = .ok a ∧ f a = b := by
  cases r <;> simp [Except.map]

lemma map_eq_error_iff {f : α → β} : r.map f = .error e ↔ r = .error e := by
  cases r <;> simp [Except.map]

lemma bind_eq_ok_iff {f : α → Except ε β} : r >>= f = .ok b ↔ ∃ a, r = .ok a ∧ f a = .ok b := by
  cases r <;> simp [bind, Except.bind]

lemma bind_eq_error_iff {f : α → Except ε β} :
    r >>= f = .error e ↔ r = .error e ∨ ∃ a, r = .ok a ∧ f a = .error e := by
  cases r <;> simp [bind, Except.bind]

end Steps

/-! ## One item after the other -/

section Items

variable {ι β ε : Type} {f : ι → Except ε β} {l : List ι} {e : ε}

/-- All items have the values of `g`. -/
lemma mapM_eq_ok_map_iff {g : ι → β} : l.mapM f = .ok (l.map g) ↔ ∀ i ∈ l, f i = .ok (g i) := by
  induction l with
  | nil => exact ⟨fun _ => List.forall_mem_nil _, fun _ => rfl⟩
  | cons i l ih =>
    rw [List.forall_mem_cons, ← ih, List.mapM_cons, List.map_cons]
    cases f i <;> cases l.mapM f <;> simp [bind, Except.bind, pure, Except.pure]

lemma mapM_append_cons_eq_error {before after : List ι} {i : ι}
    (hbefore : ∀ j ∈ before, ∃ b, f j = .ok b) (hi : f i = .error e) :
    (before ++ i :: after).mapM f = .error e := by
  induction before with
  | nil =>
    rw [List.nil_append, List.mapM_cons, hi]
    rfl
  | cons j before ih =>
    obtain ⟨⟨b, hb⟩, hrest⟩ := List.forall_mem_cons.mp hbefore
    rw [List.cons_append, List.mapM_cons, hb, ih hrest]
    rfl

lemma exists_of_mapM_eq_error (h : l.mapM f = .error e) :
    ∃ before i after, l = before ++ i :: after ∧ (∀ j ∈ before, ∃ b, f j = .ok b) ∧
      f i = .error e := by
  induction l with
  | nil => exact absurd h (by simp [pure, Except.pure])
  | cons i l ih =>
    rw [List.mapM_cons] at h
    rcases bind_eq_error_iff.mp h with hi | ⟨b, hi, hrest⟩
    · exact ⟨[], i, l, rfl, List.forall_mem_nil _, hi⟩
    · rcases bind_eq_error_iff.mp hrest with hl | ⟨bs, -, hbs⟩
      · obtain ⟨before, k, after, rfl, hbefore, hk⟩ := ih hl
        exact ⟨i :: before, k, after, rfl, List.forall_mem_cons.mpr ⟨⟨b, hi⟩, hbefore⟩, hk⟩
      · exact absurd hbs (by simp [pure, Except.pure])

/-- The error is that of an item, and the items before it have values. -/
lemma mapM_eq_error_iff : l.mapM f = .error e ↔
    ∃ before i after, l = before ++ i :: after ∧ (∀ j ∈ before, ∃ b, f j = .ok b) ∧
      f i = .error e := by
  constructor
  · exact exists_of_mapM_eq_error
  · rintro ⟨before, i, after, rfl, hbefore, hi⟩
    exact mapM_append_cons_eq_error hbefore hi

end Items

end RevenueDesk.Outcome
