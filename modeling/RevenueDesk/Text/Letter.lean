/-
# Letters up to case

Comparison of a text with an ASCII word without regard to case, in two senses of Unicode:
simple case folding, which searching uses, and upper-casing.  Both differ from the ASCII
rules at a few characters outside ASCII: the long s folds onto `s`, the Kelvin sign onto
`k`; the upper case of the long s is `S` and that of the dotless i is `I`.
-/

namespace RevenueDesk.Text

def isCapital (c : Char) : Bool := 'A' ≤ c && c ≤ 'Z'

def isSmall (c : Char) : Bool := 'a' ≤ c && c ≤ 'z'

def isDigit (c : Char) : Bool := '0' ≤ c && c ≤ '9'

/-- The small ASCII letter that `c` folds onto, and `c` itself if there is none. -/
def foldLetter (c : Char) : Char :=
  if isCapital c then Char.ofNat (c.toNat + 32)
  else if c == '\u017F' then 's'
  else if c == '\u212A' then 'k'
  else c

/-- The upper case of `c` where that is one ASCII letter, and `c` itself elsewhere.  The
Kelvin sign is a capital already and stays. -/
def upperLetter (c : Char) : Char :=
  if isSmall c then Char.ofNat (c.toNat - 32)
  else if c == '\u0131' then 'I'
  else if c == '\u017F' then 'S'
  else c

/-- A text in upper case, as far as ASCII letters are concerned. -/
def upper (cs : List Char) : List Char := cs.map upperLetter

/-- A text is `word`, given in small letters, up to case. -/
def sameWord (word : String) (cs : List Char) : Bool :=
  cs.map foldLetter == word.toList

/-- The rest of a text that begins with `word`, given in small letters, up to case. -/
def dropWord? (word : List Char) (cs : List Char) : Option (List Char) :=
  match word, cs with
  | [], cs => some cs
  | _ :: _, [] => none
  | w :: ws, c :: cs => if foldLetter c == w then dropWord? ws cs else none

/-- The rest of a text that begins with `start`, character by character. -/
def dropStart? (start cs : List Char) : Option (List Char) :=
  match start, cs with
  | [], cs => some cs
  | _ :: _, [] => none
  | w :: ws, c :: cs => if c = w then dropStart? ws cs else none

/-! ## Lemmas -/

theorem dropStart?_eq_some_iff {start cs rest : List Char} :
    dropStart? start cs = some rest ↔ cs = start ++ rest := by
  induction start generalizing cs with
  | nil => simp [dropStart?]
  | cons w ws ih =>
    cases cs with
    | nil => simp [dropStart?]
    | cons c cs =>
      by_cases h : c = w
      · simp [dropStart?, h, ih]
      · simp [dropStart?, h]

theorem dropStart?_eq_none_iff {start cs : List Char} :
    dropStart? start cs = none ↔ ¬ start <+: cs := by
  rw [Option.eq_none_iff_forall_ne_some]
  constructor
  · rintro hnone ⟨rest, hrest⟩
    exact hnone rest (dropStart?_eq_some_iff.mpr hrest.symm)
  · intro hstart rest hrest
    exact hstart ⟨rest, (dropStart?_eq_some_iff.mp hrest).symm⟩

theorem dropWord?_eq_some_iff {word cs rest : List Char} :
    dropWord? word cs = some rest ↔
      ∃ used, cs = used ++ rest ∧ used.map foldLetter = word := by
  induction word generalizing cs with
  | nil => simp [dropWord?]
  | cons w ws ih =>
    cases cs with
    | nil => simp [dropWord?]
    | cons c cs =>
      by_cases h : foldLetter c = w
      · simp only [dropWord?, h, beq_self_eq_true, if_true, ih]
        constructor
        · rintro ⟨used, rfl, hu⟩
          exact ⟨c :: used, by simp, by simp [h, hu]⟩
        · rintro ⟨used, hc, hu⟩
          cases used with
          | nil => simp at hu
          | cons u us =>
            simp only [List.map_cons, List.cons.injEq] at hu
            simp only [List.cons_append, List.cons.injEq] at hc
            exact ⟨us, hc.2, hu.2⟩
      · simp only [dropWord?, beq_iff_eq, h, if_false]
        constructor
        · simp
        · rintro ⟨used, hc, hu⟩
          cases used with
          | nil => simp at hu
          | cons u us =>
            simp only [List.map_cons, List.cons.injEq] at hu
            simp only [List.cons_append, List.cons.injEq] at hc
            exact absurd (hc.1 ▸ hu.1) h

end RevenueDesk.Text
