/-
# What is left between the blanks

Trimming takes the blanks off both ends of a text and nothing else, and other characters are
stripped off in the same way.  What is left is determined by what stands around it: `trims_iff`
and `strips_iff` say so without looking at how the two ends are dropped.  In the same way a row of
characters of one kind is determined by the character that stands behind it (`span_eq`).
-/
import Mathlib.Data.List.TakeWhile
import Mathlib.Tactic.Common
import RevenueDesk.Text.Blank

namespace RevenueDesk.Text

/-! ## Rows of characters -/

section Rows

variable {p : Char → Bool} {cs : List Char}

/-- Nothing is dropped from a text that does not begin with such a character. -/
lemma dropWhile_eq_self (h : ∀ c, cs.head? = some c → p c = false) : cs.dropWhile p = cs := by
  cases cs with
  | nil => rfl
  | cons c cs => simp [h c rfl]

/-- What ends where it must is what is taken as long as possible. -/
lemma span_eq {body rest : List Char} (hbody : ∀ c ∈ body, p c = true)
    (hrest : ∀ c ∈ rest.head?, p c = false) :
    (body ++ rest).takeWhile p = body ∧ (body ++ rest).dropWhile p = rest := by
  have hdrop : (body ++ rest).dropWhile p = rest := by
    rw [List.dropWhile_append_of_pos hbody, dropWhile_eq_self hrest]
  have hsplit := List.takeWhile_append_dropWhile (p := p) (l := body ++ rest)
  rw [hdrop] at hsplit
  exact ⟨List.append_cancel_right hsplit, hdrop⟩

lemma head?_dropWhile (cs : List Char) : ∀ c ∈ (cs.dropWhile p).head?, p c = false := by
  intro c hc
  have hnot := List.head?_dropWhile_not p cs
  rw [Option.mem_def.mp hc] at hnot
  simpa using hnot

/-- What stands behind everything but one character begins with it. -/
lemma eq_of_head?_dropWhile_ne {c d : Char} (h : (cs.dropWhile (· != d)).head? = some c) :
    c = d := by
  simpa using head?_dropWhile cs c h

variable (p) in
/-- A row of characters ends where it did if the text behind it begins with another one. -/
lemma cut_append (cs : List Char) {zs : List Char} (hzs : ∀ c, zs.head? = some c → p c = false) :
    (cs.takeWhile p ++ zs).takeWhile p = cs.takeWhile p ∧
      (cs.takeWhile p ++ zs).dropWhile p = zs :=
  span_eq (List.all_eq_true.mp List.all_takeWhile) hzs

end Rows

/-! ## The end of a text -/

section Ends

variable {p q : Char → Bool} {cs xs : List Char} {c : Char}

lemma getLast?_dropEndWhile (h : (dropEndWhile p cs).getLast? = some c) : p c = false := by
  rw [dropEndWhile, List.getLast?_reverse] at h
  exact head?_dropWhile cs.reverse c h

lemma head?_dropEndWhile (h : (dropEndWhile p cs).head? = some c) : cs.head? = some c := by
  obtain ⟨t, ht, -⟩ := exists_dropEndWhile_append p cs
  obtain ⟨ds, hds⟩ := List.head?_eq_some_iff.mp h
  rw [ht, hds]
  rfl

lemma dropEndWhile_eq_self (h : ∀ c, cs.getLast? = some c → p c = false) :
    dropEndWhile p cs = cs := by
  rcases List.eq_nil_or_concat cs with rfl | ⟨ds, d, rfl⟩
  · rfl
  · have hd : p d = false := h d (by simp)
    simp [dropEndWhile, hd]

/-- The first text is reached only if nothing of the second one stays. -/
lemma dropEndWhile_append (xs ys : List Char) :
    dropEndWhile p (xs ++ ys) =
      if dropEndWhile p ys = [] then dropEndWhile p xs else xs ++ dropEndWhile p ys := by
  simp only [dropEndWhile, List.reverse_append, List.dropWhile_append, List.isEmpty_iff,
    List.reverse_eq_nil_iff]
  split <;> simp

lemma dropEndWhile_eq_nil_iff : dropEndWhile p xs = [] ↔ ∀ c ∈ xs, p c = true := by
  simp [dropEndWhile, List.dropWhile_eq_nil_iff]

lemma dropEndWhile_dropEndWhile (h : ∀ c, p c = true → q c = true) (xs : List Char) :
    dropEndWhile q (dropEndWhile p xs) = dropEndWhile q xs := by
  obtain ⟨t, ht, htp⟩ := exists_dropEndWhile_append p xs
  conv_rhs => rw [ht, dropEndWhile_append,
    if_pos (dropEndWhile_eq_nil_iff.mpr fun c hc => h c (htp c hc))]

end Ends

/-! ## Both ends -/

/-- `text` is all of `cs` but characters with `p` at the two ends, and has none of them at its
own. -/
structure Strips (p : Char → Bool) (cs text : List Char) : Prop where
  around : ∃ before after, cs = before ++ (text ++ after) ∧
    (∀ c ∈ before, p c = true) ∧ ∀ c ∈ after, p c = true
  head_ok : ∀ c, text.head? = some c → p c = false
  last_ok : ∀ c, text.getLast? = some c → p c = false

/-- `text` is all of `cs` but blanks at the two ends, and has no blanks at its own. -/
structure Trims (cs text : List Char) : Prop where
  around : ∃ before after, cs = before ++ (text ++ after) ∧
    (∀ c ∈ before, isBlank c = true) ∧ ∀ c ∈ after, isBlank c = true
  head_ok : ∀ c, text.head? = some c → isBlank c = false
  last_ok : ∀ c, text.getLast? = some c → isBlank c = false

section Strips

variable {p : Char → Bool} {cs text : List Char}

variable (p cs) in
lemma strips_dropEndWhile : Strips p cs (dropEndWhile p (cs.dropWhile p)) where
  around := by
    obtain ⟨after, hafter, hp⟩ := exists_dropEndWhile_append p (cs.dropWhile p)
    refine ⟨cs.takeWhile p, after, ?_, fun c hc => List.mem_takeWhile_imp hc, hp⟩
    rw [← hafter, List.takeWhile_append_dropWhile]
  head_ok := fun c hc => head?_dropWhile cs c (head?_dropEndWhile hc)
  last_ok := fun _ hc => getLast?_dropEndWhile hc

lemma Strips.eq_dropEndWhile (h : Strips p cs text) :
    dropEndWhile p (cs.dropWhile p) = text := by
  obtain ⟨before, after, rfl, hbefore, hafter⟩ := h.around
  have hend : dropEndWhile p (text ++ after) = text := by
    rw [dropEndWhile_append, if_pos (dropEndWhile_eq_nil_iff.mpr hafter)]
    exact dropEndWhile_eq_self h.last_ok
  rw [List.dropWhile_append_of_pos hbefore]
  cases htext : text with
  | nil =>
    have hnil : after.dropWhile p = [] := List.dropWhile_eq_nil_iff.mpr hafter
    rw [List.nil_append, hnil]
    rfl
  | cons c text' =>
    subst htext
    rw [dropWhile_eq_self (by simpa using h.head_ok), hend]

/-- Dropping at both ends leaves what stands between them. -/
theorem strips_iff : Strips p cs text ↔ dropEndWhile p (cs.dropWhile p) = text :=
  ⟨Strips.eq_dropEndWhile, fun h => h ▸ strips_dropEndWhile p cs⟩

end Strips

variable {cs text : List Char}

lemma trims_iff_strips : Trims cs text ↔ Strips isBlank cs text :=
  ⟨fun h => ⟨h.around, h.head_ok, h.last_ok⟩, fun h => ⟨h.around, h.head_ok, h.last_ok⟩⟩

/-- Trimming leaves what stands between the blanks. -/
theorem trims_iff : Trims cs text ↔ trim cs = text := trims_iff_strips.trans strips_iff

lemma trims_trim (cs : List Char) : Trims cs (trim cs) := trims_iff.mpr rfl

/-- Where there are no blanks at the ends any more, nothing is left to trim. -/
lemma Trims.self (h : Trims cs text) : Trims text text where
  around := ⟨[], [], by simp⟩
  head_ok := h.head_ok
  last_ok := h.last_ok

lemma Trims.isInfix (h : Trims cs text) : text <:+: cs := by
  obtain ⟨before, after, rfl, -⟩ := h.around
  exact ⟨before, after, List.append_assoc _ _ _⟩

/-- It leaves nothing if there is nothing but blanks. -/
lemma trim_eq_nil_iff : trim cs = [] ↔ ∀ c ∈ cs, isBlank c = true := by
  constructor
  · intro h
    obtain ⟨before, after, hcs, hbefore, hafter⟩ := (trims_iff.mpr h).around
    rw [hcs, List.nil_append]
    exact List.forall_mem_append.mpr ⟨hbefore, hafter⟩
  · intro h
    exact trims_iff.mp ⟨⟨cs, [], by simp, h, by simp⟩, by simp, by simp⟩

/-! ## The same on strings -/

section Strings

variable {s t : String}

lemma toList_trimmed (s : String) : (trimmed s).toList = trim s.toList := String.toList_ofList

lemma trims_toList_iff : Trims s.toList t.toList ↔ trimmed s = t := by
  rw [trims_iff, ← toList_trimmed, String.toList_inj]

lemma trims_trimmed (s : String) : Trims s.toList (trimmed s).toList := trims_toList_iff.mpr rfl

end Strings

end RevenueDesk.Text
