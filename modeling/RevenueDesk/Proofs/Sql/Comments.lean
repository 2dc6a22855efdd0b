/-
# Reading a text without its comments

The guard takes the comments out of a text in two passes: first the line comments, wherever
they are, then the block comments.  Here are the two passes one character at a time, and
what they do to a text that is put together from two.

* `dropLineComments_append_newline`: the first pass begins anew on every line;
* `dropLineComments_append`: behind a text that ends inside a line comment it goes on inside;
* `dropBlockComments_append`: the second pass begins anew behind a text in which no block
  comment is left open.
-/
import Mathlib.Tactic.Common
import RevenueDesk.Sql.Guard

namespace RevenueDesk.Sql

/-! ## Line comments -/

@[simp] lemma dropLineComments_nil (inside : Bool) : dropLineComments inside [] = [] := by
  cases inside <;> rfl

/-- Inside a line comment everything goes up to the end of the line. -/
lemma dropLineComments_inside (c : Char) (cs : List Char) :
    dropLineComments true (c :: cs) =
      if c = '\n' then '\n' :: dropLineComments false cs else dropLineComments true cs := by
  cases cs with
  | nil => by_cases h : c = '\n' <;> simp [dropLineComments, h]
  | cons d ds => by_cases h : c = '\n' <;> simp [dropLineComments, h]

/-- Outside, two dashes begin a line comment. -/
lemma dropLineComments_outside (c : Char) (cs : List Char) :
    dropLineComments false (c :: cs) =
      if c = '-' ∧ cs.head? = some '-' then dropLineComments true cs
      else c :: dropLineComments false cs := by
  cases cs with
  | nil => simp [dropLineComments]
  | cons d ds =>
    by_cases h : c = '-' ∧ d = '-'
    · obtain ⟨rfl, rfl⟩ := h
      rw [dropLineComments_inside]
      simp [dropLineComments]
    · simp [dropLineComments, h]

lemma dropLineComments_append_of_no_dash {xs : List Char} (h : ∀ c ∈ xs, c ≠ '-')
    (ys : List Char) :
    dropLineComments false (xs ++ ys) = xs ++ dropLineComments false ys := by
  induction xs with
  | nil => rfl
  | cons c cs ih =>
    obtain ⟨hc, hcs⟩ := List.forall_mem_cons.mp h
    rw [List.cons_append, dropLineComments_outside, if_neg (fun hd => hc hd.1), ih hcs,
      List.cons_append]

lemma dropLineComments_append_of_no_newline {xs : List Char} (h : ∀ c ∈ xs, c ≠ '\n')
    (ys : List Char) : dropLineComments true (xs ++ ys) = dropLineComments true ys := by
  induction xs with
  | nil => rfl
  | cons c cs ih =>
    obtain ⟨hc, hcs⟩ := List.forall_mem_cons.mp h
    rw [List.cons_append, dropLineComments_inside, if_neg hc, ih hcs]

/-- Removing line comments begins anew on every line. -/
lemma dropLineComments_append_newline (inside : Bool) (xs ys : List Char) :
    dropLineComments inside (xs ++ '\n' :: ys) =
      dropLineComments inside xs ++ '\n' :: dropLineComments false ys := by
  induction xs generalizing inside with
  | nil =>
    cases inside with
    | false => simp [dropLineComments_outside]
    | true => simp [dropLineComments_inside]
  | cons c cs ih =>
    cases inside with
    | true =>
      rw [List.cons_append, dropLineComments_inside, dropLineComments_inside, ih, ih]
      split <;> rfl
    | false =>
      have hhead : (cs ++ '\n' :: ys).head? = some '-' ↔ cs.head? = some '-' := by
        cases cs <;> simp
      rw [List.cons_append, dropLineComments_outside, dropLineComments_outside, ih, ih]
      simp only [hhead]
      split <;> rfl

/-- A text that is read from outside or inside a line comment ends inside one. -/
def endsInside : Bool → List Char → Bool
  | inside, [] => inside
  | true, c :: cs => endsInside (c != '\n') cs
  | false, c :: cs => endsInside (c == '-' && cs.head? == some '-') cs

/-- Behind a text that ends inside a line comment, removing them goes on inside.  Two dashes
that stand on either side of the seam are the only thing that is read otherwise. -/
lemma dropLineComments_append {inside : Bool} {xs ys : List Char}
    (hseam : endsInside inside xs = false → xs.getLast? = some '-' → ys.head? ≠ some '-') :
    dropLineComments inside (xs ++ ys) =
      dropLineComments inside xs ++ dropLineComments (endsInside inside xs) ys := by
  induction xs generalizing inside with
  | nil => simp [endsInside]
  | cons c cs ih =>
    -- whatever state the first character leads to, the seam is the same
    have hnext : ∀ inside', endsInside inside (c :: cs) = endsInside inside' cs →
        dropLineComments inside' (cs ++ ys) =
          dropLineComments inside' cs ++ dropLineComments (endsInside inside' cs) ys := by
      intro inside' hstate
      refine ih fun hout hlast => hseam (hstate.trans hout) ?_
      simp [List.getLast?_cons, hlast]
    cases inside with
    | true =>
      rw [List.cons_append, dropLineComments_inside, dropLineComments_inside]
      by_cases hc : c = '\n'
      · have hstate : endsInside true (c :: cs) = endsInside false cs := by simp [endsInside, hc]
        rw [if_pos hc, if_pos hc, hnext false hstate, hstate, List.cons_append]
      · have hstate : endsInside true (c :: cs) = endsInside true cs := by
          have hread : (c != '\n') = true := by simpa using hc
          rw [endsInside, hread]
        rw [if_neg hc, if_neg hc, hnext true hstate, hstate]
    | false =>
      rw [List.cons_append, dropLineComments_outside, dropLineComments_outside]
      by_cases hc : c = '-' ∧ cs.head? = some '-'
      · have hstate : endsInside false (c :: cs) = endsInside true cs := by simp [endsInside, hc]
        have hhead : (cs ++ ys).head? = some '-' := by simp [List.head?_append, hc.2]
        rw [if_pos ⟨hc.1, hhead⟩, if_pos hc, hnext true hstate, hstate]
      · have hstate : endsInside false (c :: cs) = endsInside false cs := by
          have hread : (c == '-' && cs.head? == some '-') = false := by simpa using hc
          rw [endsInside, hread]
        have hboth : ¬ (c = '-' ∧ (cs ++ ys).head? = some '-') := by
          rintro ⟨rfl, hhead⟩
          cases cs with
          | nil =>
            -- the two dashes stand on either side of the seam
            exact hseam rfl rfl hhead
          | cons d ds => exact hc ⟨rfl, hhead⟩
        rw [if_neg hboth, if_neg hc, hnext false hstate, hstate, List.cons_append]

/-- What is left of a text without line comments begins like the text, or with a line end. -/
lemma head?_dropLineComments {cs : List Char} {c : Char}
    (h : (dropLineComments false cs).head? = some c) : cs.head? = some c ∨ c = '\n' := by
  have hinside : ∀ ds, (dropLineComments true ds).head? = some c → c = '\n' := by
    intro ds
    induction ds with
    | nil => simp
    | cons d ds ih =>
      rw [dropLineComments_inside]
      split
      · intro hd
        simpa using hd.symm
      · exact ih
  cases cs with
  | nil => simp at h
  | cons d ds =>
    rw [dropLineComments_outside] at h
    split at h
    · exact Or.inr (hinside ds h)
    · exact Or.inl (by simpa using h)

/-! ## Block comments -/

lemma closeComment?_cons (c : Char) (cs : List Char) :
    closeComment? (c :: cs) =
      if c = '*' ∧ cs.head? = some '/' then some ([], cs.tail)
      else (closeComment? cs).map fun (inner, rest) => (c :: inner, rest) := by
  cases cs with
  | nil => simp [closeComment?]
  | cons d ds =>
    by_cases h : c = '*' ∧ d = '/'
    · simp [closeComment?, h]
    · simp only [closeComment?, h, if_false, List.head?_cons, Option.some.injEq]
      cases closeComment? (d :: ds) <;> rfl

/-- A closed comment stays closed when more text follows. -/
lemma closeComment?_append {cs inner rest : List Char} (h : closeComment? cs = some (inner, rest))
    (ys : List Char) : closeComment? (cs ++ ys) = some (inner, rest ++ ys) := by
  induction cs generalizing inner with
  | nil => simp [closeComment?] at h
  | cons c cs ih =>
    rw [closeComment?_cons] at h
    rw [List.cons_append, closeComment?_cons]
    split at h
    · -- the comment is closed by this star and the slash behind it
      rename_i hc
      cases cs with
      | nil => simp at hc
      | cons d ds =>
        obtain ⟨rfl, rfl⟩ := by simpa using h
        have hd : d = '/' := by simpa using hc.2
        simp [hc.1, hd]
    · rename_i hc
      obtain ⟨⟨inner', rest'⟩, hcs, hpair⟩ := Option.map_eq_some_iff.mp h
      obtain ⟨rfl, rfl⟩ := by simpa using hpair
      have hne : cs ≠ [] := by
        rintro rfl
        simp [closeComment?] at hcs
      have hhead : (cs ++ ys).head? = cs.head? := by
        obtain ⟨d, ds, rfl⟩ := List.exists_cons_of_ne_nil hne
        rfl
      rw [hhead, if_neg hc, ih hcs]
      rfl

lemma closeComment?_append_of_no_star {xs : List Char} (h : ∀ c ∈ xs, c ≠ '*')
    (ys : List Char) :
    closeComment? (xs ++ ys) = (closeComment? ys).map fun (inner, rest) => (xs ++ inner, rest) := by
  induction xs with
  | nil => simp
  | cons c cs ih =>
    obtain ⟨hc, hcs⟩ := List.forall_mem_cons.mp h
    rw [List.cons_append, closeComment?_cons, if_neg fun hd => hc hd.1, ih hcs, Option.map_map]
    rfl

lemma closeComment?_eq_none_of_suffix (xs : List Char) {ys : List Char}
    (h : closeComment? (xs ++ ys) = none) : closeComment? ys = none := by
  induction xs with
  | nil => exact h
  | cons c cs ih =>
    rw [List.cons_append, closeComment?_cons] at h
    split at h
    · simp at h
    · exact ih (by simpa using h)

@[simp] lemma dropBlockComments_nil : dropBlockComments [] = [] := by rw [dropBlockComments]

/-- A slash and a star that are closed somewhere begin a comment. -/
lemma dropBlockComments_of_closed {cs inner rest : List Char}
    (h : closeComment? cs = some (inner, rest)) :
    dropBlockComments ('/' :: '*' :: cs) = dropBlockComments rest := by
  rw [dropBlockComments]
  simp only [true_and, if_true]
  split
  · rename_i hc
    obtain ⟨rfl, rfl⟩ : inner = _ ∧ rest = _ := by simpa using h.symm.trans hc
    rfl
  · rename_i hc
    simp [h] at hc

/-- A text in which nothing is closed keeps its block comments. -/
lemma dropBlockComments_eq_self {cs : List Char} (h : closeComment? cs = none) :
    dropBlockComments cs = cs := by
  fun_induction dropBlockComments cs with
  | case1 => rfl
  | case2 c => rfl
  | case3 c d cs hcd inner rest hc =>
    have := closeComment?_eq_none_of_suffix [c, d] h
    simp [hc] at this
  | case4 c d cs hcd hc => rfl
  | case5 c d cs hcd ih =>
    rw [ih (closeComment?_eq_none_of_suffix [c] h)]

lemma dropBlockComments_cons_of_ne {c : Char} {cs : List Char}
    (h : ¬ (c = '/' ∧ cs.head? = some '*')) :
    dropBlockComments (c :: cs) = c :: dropBlockComments cs := by
  cases cs with
  | nil => simp [dropBlockComments]
  | cons d ds =>
    have hcd : ¬ (c = '/' ∧ d = '*') := by simpa using h
    rw [dropBlockComments]
    simp [hcd]

lemma dropBlockComments_of_open {cs : List Char} (h : closeComment? cs = none) :
    dropBlockComments ('/' :: '*' :: cs) = '/' :: '*' :: cs := by
  rw [dropBlockComments]
  simp only [true_and, if_true]
  split
  · rename_i hc
    simp [h] at hc
  · rfl

/-- Whatever does not begin a comment that is closed is kept, one character at a time. -/
lemma dropBlockComments_cons {c : Char} {cs : List Char}
    (h : c = '/' → ∀ ds, cs = '*' :: ds → closeComment? ds = none) :
    dropBlockComments (c :: cs) = c :: dropBlockComments cs := by
  by_cases hcs : c = '/' ∧ cs.head? = some '*'
  · obtain ⟨rfl, hhead⟩ := hcs
    obtain ⟨ds, rfl⟩ := List.head?_eq_some_iff.mp hhead
    have hnone := h rfl ds rfl
    rw [dropBlockComments_of_open hnone, dropBlockComments_cons_of_ne (by simp),
      dropBlockComments_eq_self hnone]
  · exact dropBlockComments_cons_of_ne hcs

lemma dropBlockComments_append_of_no_slash {xs : List Char} (h : ∀ c ∈ xs, c ≠ '/')
    (ys : List Char) : dropBlockComments (xs ++ ys) = xs ++ dropBlockComments ys := by
  induction xs with
  | nil => rfl
  | cons c cs ih =>
    obtain ⟨hc, hcs⟩ := List.forall_mem_cons.mp h
    rw [List.cons_append, dropBlockComments_cons_of_ne fun hd => hc hd.1, ih hcs,
      List.cons_append]

/-- A text without its comments, as the guard takes them out. -/
def uncommented (cs : List Char) : List Char := dropBlockComments (dropLineComments false cs)

lemma normalize_eq (cs : List Char) :
    normalize cs = Text.spaced (Text.pieces (uncommented cs)) := rfl

@[simp] lemma uncommented_nil : uncommented [] = [] := by simp [uncommented]

/-- Nothing is taken out of a text without dashes and slashes. -/
lemma uncommented_append {xs : List Char} (h : ∀ c ∈ xs, c ≠ '-' ∧ c ≠ '/') (ys : List Char) :
    uncommented (xs ++ ys) = xs ++ uncommented ys := by
  unfold uncommented
  rw [dropLineComments_append_of_no_dash fun c hc => (h c hc).1,
    dropBlockComments_append_of_no_slash fun c hc => (h c hc).2]

/-! ## Open comments -/

/-- A slash and a star stand next to each other somewhere in the text. -/
def HasOpener (cs : List Char) : Prop := ∃ xs ys, cs = xs ++ '/' :: '*' :: ys

lemma hasOpener_cons {c : Char} {cs : List Char} :
    HasOpener (c :: cs) ↔ (c = '/' ∧ cs.head? = some '*') ∨ HasOpener cs := by
  constructor
  · rintro ⟨xs, ys, h⟩
    cases xs with
    | nil =>
      obtain ⟨rfl, rfl⟩ : c = '/' ∧ cs = '*' :: ys := by simpa using h
      exact Or.inl ⟨rfl, rfl⟩
    | cons x xs =>
      obtain ⟨rfl, rfl⟩ : c = x ∧ cs = xs ++ '/' :: '*' :: ys := by simpa using h
      exact Or.inr ⟨xs, ys, rfl⟩
  · rintro (⟨rfl, hhead⟩ | ⟨xs, ys, rfl⟩)
    · obtain ⟨ds, rfl⟩ := List.head?_eq_some_iff.mp hhead
      exact ⟨[], ds, rfl⟩
    · exact ⟨c :: xs, ys, rfl⟩

lemma not_hasOpener_of_no_slash {cs : List Char} (h : ∀ c ∈ cs, c ≠ '/') : ¬ HasOpener cs := by
  rintro ⟨xs, ys, rfl⟩
  exact h '/' (by simp) rfl

lemma not_hasOpener_nil : ¬ HasOpener [] := not_hasOpener_of_no_slash (by simp)

/-- A character that is neither a slash nor a star separates what opens a comment. -/
lemma hasOpener_append_cons {c : Char} (hslash : c ≠ '/') (hstar : c ≠ '*') (xs ys : List Char) :
    HasOpener (xs ++ c :: ys) ↔ HasOpener xs ∨ HasOpener ys := by
  induction xs with
  | nil =>
    rw [List.nil_append, hasOpener_cons]
    simp [hslash, not_hasOpener_nil]
  | cons d ds ih =>
    have hhead : (ds ++ c :: ys).head? = some '*' ↔ ds.head? = some '*' := by
      cases ds <;> simp [hstar]
    rw [List.cons_append, hasOpener_cons, hasOpener_cons, ih, hhead, or_assoc]

/-- A text ends inside a block comment that is not closed in it. -/
def leftOpen : List Char → Bool
  | [] => false
  | [_] => false
  | c :: d :: cs =>
    if c = '/' ∧ d = '*' then
      match _h : closeComment? cs with
      | some (_, rest) => leftOpen rest
      | none => true
    else leftOpen (d :: cs)
termination_by cs => cs.length
decreasing_by
  · have := congrArg List.length (closeComment?_eq _h)
    simp only [List.length_append, List.length_cons] at this ⊢
    omega
  · simp

/-- A comment that is left open is not removed. -/
lemma hasOpener_of_leftOpen {cs : List Char} (h : leftOpen cs = true) :
    HasOpener (dropBlockComments cs) := by
  fun_induction leftOpen cs with
  | case1 => simp at h
  | case2 c => simp at h
  | case3 c d cs hcd inner rest hc ih =>
    obtain ⟨rfl, rfl⟩ := hcd
    rw [dropBlockComments_of_closed hc]
    exact ih h
  | case4 c d cs hcd hc =>
    obtain ⟨rfl, rfl⟩ := hcd
    rw [dropBlockComments_of_open hc]
    exact ⟨[], cs, rfl⟩
  | case5 c d cs hcd ih =>
    rw [dropBlockComments_cons_of_ne (by simpa using hcd)]
    exact hasOpener_cons.mpr (Or.inr (ih h))

/-- Removing block comments begins anew behind a text in which none is left open, unless a
slash at its end and a star behind it open one. -/
lemma dropBlockComments_append {xs ys : List Char} (hxs : leftOpen xs = false)
    (hseam : xs.getLast? = some '/' → ys.head? ≠ some '*') :
    dropBlockComments (xs ++ ys) = dropBlockComments xs ++ dropBlockComments ys := by
  fun_induction leftOpen xs with
  | case1 => simp
  | case2 c =>
    have hc : ¬ (c = '/' ∧ ys.head? = some '*') := by
      rintro ⟨rfl, hy⟩
      exact hseam rfl hy
    rw [List.singleton_append, dropBlockComments_cons_of_ne hc,
      dropBlockComments_cons_of_ne (by simp), dropBlockComments_nil, List.singleton_append]
  | case3 c d cs hcd inner rest hc ih =>
    obtain ⟨rfl, rfl⟩ := hcd
    have hlast : rest.getLast? = some '/' → ys.head? ≠ some '*' := by
      intro hr
      refine hseam ?_
      rw [closeComment?_eq hc]
      simp [List.getLast?_append, List.getLast?_cons, hr]
    rw [List.cons_append, List.cons_append,
      dropBlockComments_of_closed (closeComment?_append hc ys), ih hxs hlast,
      dropBlockComments_of_closed hc]
  | case4 c d cs hcd hc => simp at hxs
  | case5 c d cs hcd ih =>
    have hkept : dropBlockComments (c :: d :: cs) = c :: dropBlockComments (d :: cs) :=
      dropBlockComments_cons_of_ne (by simpa using hcd)
    rw [List.cons_append, dropBlockComments_cons_of_ne (by simpa using hcd),
      ih hxs (by simpa using hseam), hkept, List.cons_append]

/-- Behind a text that ends inside a block comment, it is closed or stays open. -/
lemma dropBlockComments_append_of_leftOpen {xs : List Char} (hxs : leftOpen xs = true) :
    ∃ before inside, closeComment? inside = none ∧
      ∀ ys, dropBlockComments (xs ++ ys) =
        before ++ dropBlockComments ('/' :: '*' :: (inside ++ ys)) := by
  fun_induction leftOpen xs with
  | case1 => simp at hxs
  | case2 c => simp at hxs
  | case3 c d cs hcd inner rest hc ih =>
    obtain ⟨rfl, rfl⟩ := hcd
    obtain ⟨before, inside, hopen, hrest⟩ := ih hxs
    refine ⟨before, inside, hopen, fun ys => ?_⟩
    rw [List.cons_append, List.cons_append,
      dropBlockComments_of_closed (closeComment?_append hc ys), hrest]
  | case4 c d cs hcd hc =>
    obtain ⟨rfl, rfl⟩ := hcd
    exact ⟨[], cs, hc, fun ys => rfl⟩
  | case5 c d cs hcd ih =>
    obtain ⟨before, inside, hopen, hrest⟩ := ih hxs
    refine ⟨c :: before, inside, hopen, fun ys => ?_⟩
    rw [List.cons_append, dropBlockComments_cons_of_ne (by simpa using hcd), hrest,
      List.cons_append]

end RevenueDesk.Sql
