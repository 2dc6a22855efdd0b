/-
# Blank characters

The characters with the Unicode property `White_Space`, and the ways a text is cut at them:
trimming both ends, and splitting into the pieces that stand between blanks.  Texts are
lists of characters here; the functions on `String` at the end are the same ones on the
characters of the string.
-/

namespace RevenueDesk.Text

/-- The Unicode property `White_Space`.  The zero-width space, the byte order mark and the
separators U+001C to U+001F do not have it. -/
def isBlank (c : Char) : Bool :=
  let n := c.val
  (9 ≤ n && n ≤ 13) || n == 0x20 || n == 0x85 || n == 0xA0 || n == 0x1680
    || (0x2000 ≤ n && n ≤ 0x200A) || n == 0x2028 || n == 0x2029 || n == 0x202F
    || n == 0x205F || n == 0x3000

/-- A text without its longest end whose characters all satisfy `p`. -/
def dropEndWhile (p : Char → Bool) (cs : List Char) : List Char :=
  (cs.reverse.dropWhile p).reverse

/-- A text without the blanks at its beginning and at its end. -/
def trim (cs : List Char) : List Char :=
  dropEndWhile isBlank (cs.dropWhile isBlank)

/-- One step of `splitWhere`, from the right: a separator opens a new part, any other
character joins the part to its right. -/
def splitStep (p : Char → Bool) (c : Char) (parts : List (List Char)) : List (List Char) :=
  if p c then [] :: parts
  else match parts with
    | [] => [[c]]
    | w :: ws => (c :: w) :: ws

/-- The parts of a text between the characters that satisfy `p`.  There is always one part
more than there are separators; parts may be empty. -/
def splitWhere (p : Char → Bool) (cs : List Char) : List (List Char) :=
  cs.foldr (splitStep p) [[]]

/-- The non-empty parts of a text between the characters that satisfy `p`. -/
def runs (p : Char → Bool) (cs : List Char) : List (List Char) :=
  (splitWhere p cs).filter (!·.isEmpty)

/-- The maximal runs of a text without blanks. -/
def pieces (cs : List Char) : List (List Char) :=
  runs isBlank cs

/-- The pieces, one space between two of them. -/
def spaced (ps : List (List Char)) : List Char :=
  List.intercalate [' '] ps

/-! ## Lemmas -/

@[simp] theorem splitWhere_nil (p : Char → Bool) : splitWhere p [] = [[]] := rfl

@[simp] theorem splitWhere_cons (p : Char → Bool) (c : Char) (cs : List Char) :
    splitWhere p (c :: cs) = splitStep p c (splitWhere p cs) := rfl

theorem splitWhere_ne_nil (p : Char → Bool) (cs : List Char) : splitWhere p cs ≠ [] := by
  cases cs with
  | nil => simp
  | cons c cs =>
    simp only [splitWhere_cons, splitStep]
    split
    · simp
    · split <;> simp

@[simp] theorem trim_nil : trim [] = [] := rfl

/-- No part holds a separator. -/
theorem eq_false_of_mem_splitWhere {p : Char → Bool} {cs w : List Char} {c : Char}
    (hw : w ∈ splitWhere p cs) (hc : c ∈ w) : p c = false := by
  induction cs generalizing w with
  | nil => simp_all
  | cons d ds ih =>
    rw [splitWhere_cons] at hw
    unfold splitStep at hw
    split at hw
    · rcases List.mem_cons.1 hw with rfl | hw
      · simp at hc
      · exact ih hw hc
    · rename_i hd
      split at hw
      · rcases List.mem_singleton.1 hw with rfl
        rw [List.mem_singleton.1 hc]
        simpa using hd
      · rename_i v vs hvs
        rcases List.mem_cons.1 hw with rfl | hw
        · rcases List.mem_cons.1 hc with rfl | hc
          · simpa using hd
          · exact ih (hvs ▸ List.mem_cons_self) hc
        · exact ih (hvs ▸ List.mem_cons_of_mem _ hw) hc

/-- The parts together are the text without its separators. -/
theorem flatten_splitWhere (p : Char → Bool) (cs : List Char) :
    (splitWhere p cs).flatten = cs.filter (!p ·) := by
  induction cs with
  | nil => rfl
  | cons d ds ih =>
    rw [splitWhere_cons]
    unfold splitStep
    split
    · rename_i hd
      simp [hd, ih]
    · rename_i hd
      split
      · rename_i h
        exact absurd h (splitWhere_ne_nil p ds)
      · rename_i v vs hvs
        rw [hvs] at ih
        simp [hd, ← ih]

theorem eq_false_of_mem_runs {p : Char → Bool} {cs w : List Char} {c : Char}
    (hw : w ∈ runs p cs) (hc : c ∈ w) : p c = false :=
  eq_false_of_mem_splitWhere (List.mem_filter.1 hw).1 hc

theorem ne_nil_of_mem_runs {p : Char → Bool} {cs w : List Char} (hw : w ∈ runs p cs) :
    w ≠ [] := by
  have h := (List.mem_filter.1 hw).2
  intro e
  simp [e] at h

/-- What is dropped at the end satisfies `p`. -/
theorem exists_dropEndWhile_append (p : Char → Bool) (cs : List Char) :
    ∃ t, cs = dropEndWhile p cs ++ t ∧ ∀ c ∈ t, p c = true := by
  refine ⟨(cs.reverse.takeWhile p).reverse, ?_, ?_⟩
  · have h := congrArg List.reverse (List.takeWhile_append_dropWhile (p := p) (l := cs.reverse))
    rw [List.reverse_append, List.reverse_reverse] at h
    exact h.symm
  · intro c hc
    have hall := List.all_eq_true.1 (List.all_takeWhile (p := p) (l := cs.reverse))
    exact hall c (List.mem_reverse.1 hc)

/-! ## The same on strings -/

/-- A string without the blanks at both ends. -/
def trimmed (s : String) : String := String.ofList (trim s.toList)

/-- No character, or blanks only. -/
def isAllBlank (s : String) : Bool := s.toList.all isBlank

end RevenueDesk.Text
