/-
# The tokens of an SQL text

An SQL text is cut, from left to right, into the parts that matter when something in it is
to be replaced or hidden: string literals, quoted identifiers, comments of both kinds,
casts, references to named parameters, and single characters for all the rest.  A quote
inside a literal or a quoted identifier is written twice.  A quote or the beginning of a
block comment that is never closed is a character like any other.

Every text is the concatenation of its tokens (`flatMap_text_tokens`).
-/
import RevenueDesk.Text.Letter

namespace RevenueDesk.Sql

/-- A token, with what is written inside its delimiters. -/
inductive Token where
  | literal (inner : List Char)
  | identifier (inner : List Char)
  /-- From two dashes to the end of the line. -/
  | lineComment (inner : List Char)
  /-- From a slash and a star to the next star and slash. -/
  | blockComment (inner : List Char)
  | cast
  /-- A colon and a name. -/
  | reference (name : List Char)
  /-- Any other character. -/
  | plain (c : Char)
deriving DecidableEq, Repr

/-- A token as it is written. -/
def Token.text : Token → List Char
  | literal inner => '\'' :: inner ++ ['\'']
  | identifier inner => '"' :: inner ++ ['"']
  | lineComment inner => '-' :: '-' :: inner
  | blockComment inner => '/' :: '*' :: inner ++ ['*', '/']
  | cast => [':', ':']
  | reference name => ':' :: name
  | plain c => [c]

/-- What stands between an opening quote `q` and its closing one, and the rest.  Of two
quotes side by side both belong to the inside, unless the text is never closed after them:
then the first of them closes it. -/
def closeQuote? (q : Char) : List Char → Option (List Char × List Char)
  | [] => none
  | [c] => if c = q then some ([], []) else none
  | c :: d :: cs =>
    if c = q then
      if d = q then
        match closeQuote? q cs with
        | some (inner, rest) => some (c :: d :: inner, rest)
        | none => some ([], d :: cs)
      else some ([], d :: cs)
    else
      match closeQuote? q (d :: cs) with
      | some (inner, rest) => some (c :: inner, rest)
      | none => none

/-- What stands before the first star and slash, and the rest behind them. -/
def closeComment? : List Char → Option (List Char × List Char)
  | [] => none
  | [_] => none
  | c :: d :: cs =>
    if c = '*' ∧ d = '/' then some ([], cs)
    else
      match closeComment? (d :: cs) with
      | some (inner, rest) => some (c :: inner, rest)
      | none => none

/-- `c` can begin the name of a parameter. -/
def isNameStart (c : Char) : Bool := Text.isSmall c || Text.isCapital c || c == '_'

/-- `c` can stand in the name of a parameter. -/
def isNameChar (c : Char) : Bool := isNameStart c || Text.isDigit c

/-- The token that a text begins with, and the rest. -/
def next (c : Char) (cs : List Char) : Token × List Char :=
  if c = '\'' then
    match closeQuote? c cs with
    | some (inner, rest) => (.literal inner, rest)
    | none => (.plain c, cs)
  else if c = '"' then
    match closeQuote? c cs with
    | some (inner, rest) => (.identifier inner, rest)
    | none => (.plain c, cs)
  else
    match cs with
    | [] => (.plain c, cs)
    | d :: ds =>
      if c = '-' ∧ d = '-' then
        (.lineComment (ds.takeWhile (· != '\n')), ds.dropWhile (· != '\n'))
      else if c = '/' ∧ d = '*' then
        match closeComment? ds with
        | some (inner, rest) => (.blockComment inner, rest)
        | none => (.plain c, cs)
      else if c = ':' ∧ d = ':' then (.cast, ds)
      else if c = ':' ∧ isNameStart d then
        (.reference (d :: ds.takeWhile isNameChar), ds.dropWhile isNameChar)
      else (.plain c, cs)

/-! ## A token and the rest make up the text -/

theorem closeQuote?_eq {q : Char} {cs inner rest : List Char}
    (h : closeQuote? q cs = some (inner, rest)) : cs = inner ++ q :: rest := by
  fun_induction closeQuote? q cs generalizing inner rest with
  | case1 => simp at h
  | case2 => simp_all
  | case3 => simp at h
  | case4 cs inner' rest' hr ih =>
    simp only [Option.some.injEq, Prod.mk.injEq] at h
    obtain ⟨rfl, rfl⟩ := h
    simp [ih hr]
  | case5 => simp_all
  | case6 => simp_all
  | case7 c d cs hc inner' rest' hr ih =>
    simp only [Option.some.injEq, Prod.mk.injEq] at h
    obtain ⟨rfl, rfl⟩ := h
    simp [ih hr]
  | case8 => simp at h

theorem closeComment?_eq {cs inner rest : List Char}
    (h : closeComment? cs = some (inner, rest)) : cs = inner ++ '*' :: '/' :: rest := by
  fun_induction closeComment? cs generalizing inner rest with
  | case1 => simp at h
  | case2 => simp at h
  | case3 => simp_all
  | case4 c d cs hc inner' rest' hr ih =>
    simp only [Option.some.injEq, Prod.mk.injEq] at h
    obtain ⟨rfl, rfl⟩ := h
    simp [ih hr]
  | case5 => simp at h

theorem text_next (c : Char) (cs : List Char) :
    (next c cs).1.text ++ (next c cs).2 = c :: cs := by
  unfold next
  split
  · rename_i hc
    subst hc
    split
    · rename_i inner rest h
      simp [Token.text, closeQuote?_eq h]
    · simp [Token.text]
  · split
    · rename_i hc
      subst hc
      split
      · rename_i inner rest h
        simp [Token.text, closeQuote?_eq h]
      · simp [Token.text]
    · split
      · simp [Token.text]
      · split
        · rename_i h
          simp [Token.text, h.1, h.2, List.takeWhile_append_dropWhile]
        · split
          · rename_i h
            split
            · rename_i inner rest hr
              simp [Token.text, h.1, h.2, closeComment?_eq hr]
            · simp [Token.text]
          · split
            · rename_i h
              simp [Token.text, h.1, h.2]
            · split
              · rename_i h
                simp [Token.text, h.1, List.takeWhile_append_dropWhile]
              · simp [Token.text]

theorem Token.text_ne_nil (t : Token) : t.text ≠ [] := by
  cases t <;> simp [Token.text]

theorem length_next_le (c : Char) (cs : List Char) : (next c cs).2.length ≤ cs.length := by
  have h := congrArg List.length (text_next c cs)
  have := List.length_pos_iff.2 (next c cs).1.text_ne_nil
  simp only [List.length_append, List.length_cons] at h
  omega

/-! ## All tokens -/

def tokens : List Char → List Token
  | [] => []
  | c :: cs => (next c cs).1 :: tokens (next c cs).2
termination_by cs => cs.length
decreasing_by
  have := length_next_le c cs
  simp only [List.length_cons]
  omega

@[simp] theorem tokens_nil : tokens [] = [] := by rw [tokens]

theorem tokens_cons (c : Char) (cs : List Char) :
    tokens (c :: cs) = (next c cs).1 :: tokens (next c cs).2 := by rw [tokens]

/-- A text is the concatenation of its tokens. -/
theorem flatMap_text_tokens (cs : List Char) : (tokens cs).flatMap Token.text = cs := by
  fun_induction tokens cs with
  | case1 => rfl
  | case2 c cs ih => rw [List.flatMap_cons, ih, text_next]

end RevenueDesk.Sql
