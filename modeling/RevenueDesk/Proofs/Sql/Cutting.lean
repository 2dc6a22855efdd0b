/-
# How a text is cut into tokens

`Reads cs t rest` says that the text `cs` begins with the token `t` and that `rest` stands
behind it, one case for every kind of token, each with all that has to hold of the text.
Every text that is not empty begins with just one token, the one that the function for it
gives (`reads_next`, `Reads.next_eq`), so a text can be followed token by token
(`reads_induction`).  `ReadsAll` says the same of a row of tokens.
-/
import RevenueDesk.Proofs.Text.Trimming
import RevenueDesk.Sql.Token

namespace RevenueDesk.Sql

/-- The text begins with the token, and the rest stands behind it. -/
inductive Reads : List Char → Token → List Char → Prop where
  | literal {cs inner rest : List Char} (h : closeQuote? '\'' cs = some (inner, rest)) :
      Reads ('\'' :: cs) (.literal inner) rest
  | identifier {cs inner rest : List Char} (h : closeQuote? '"' cs = some (inner, rest)) :
      Reads ('"' :: cs) (.identifier inner) rest
  | lineComment (cs : List Char) :
      Reads ('-' :: '-' :: cs) (.lineComment (cs.takeWhile (· != '\n')))
        (cs.dropWhile (· != '\n'))
  | blockComment {cs inner rest : List Char} (h : closeComment? cs = some (inner, rest)) :
      Reads ('/' :: '*' :: cs) (.blockComment inner) rest
  | cast (cs : List Char) : Reads (':' :: ':' :: cs) .cast cs
  | reference {d : Char} (cs : List Char) (hd : isNameStart d = true) :
      Reads (':' :: d :: cs) (.reference (d :: cs.takeWhile isNameChar))
        (cs.dropWhile isNameChar)
  | plain {c : Char} {cs : List Char} (hquote : c = '\'' ∨ c = '"' → closeQuote? c cs = none)
      (hdash : c = '-' → cs.head? ≠ some '-')
      (hslash : c = '/' → ∀ ds, cs = '*' :: ds → closeComment? ds = none)
      (hcolon : c = ':' → ∀ d ds, cs = d :: ds → d ≠ ':' ∧ isNameStart d = false) :
      Reads (c :: cs) (.plain c) cs

/-- The token that is read and the rest make up the text. -/
lemma Reads.text_append {cs rest : List Char} {t : Token} (h : Reads cs t rest) :
    t.text ++ rest = cs := by
  cases h with
  | literal h => simp [Token.text, closeQuote?_eq h]
  | identifier h => simp [Token.text, closeQuote?_eq h]
  | lineComment cs => simp [Token.text]
  | blockComment h => simp [Token.text, closeComment?_eq h]
  | cast cs => rfl
  | reference cs hd => simp [Token.text]
  | plain _ _ _ _ => rfl

lemma Reads.length_lt {cs rest : List Char} {t : Token} (h : Reads cs t rest) :
    rest.length < cs.length := by
  have hlen := congrArg List.length h.text_append
  have := List.length_pos_iff.mpr t.text_ne_nil
  simp only [List.length_append] at hlen
  omega

lemma isNameStart_colon : isNameStart ':' = false := by decide

/-- What is read is what the function that reads a token gives. -/
lemma Reads.next_eq {c : Char} {cs rest : List Char} {t : Token} (h : Reads (c :: cs) t rest) :
    next c cs = (t, rest) := by
  generalize htext : c :: cs = text at h
  cases h with
  | literal h =>
    obtain ⟨rfl, rfl⟩ := by simpa using htext
    simp [next, h]
  | identifier h =>
    obtain ⟨rfl, rfl⟩ := by simpa using htext
    simp [next, h]
  | lineComment cs =>
    obtain ⟨rfl, rfl⟩ := by simpa using htext
    simp [next]
  | blockComment h =>
    obtain ⟨rfl, rfl⟩ := by simpa using htext
    simp [next, h]
  | cast cs =>
    obtain ⟨rfl, rfl⟩ := by simpa using htext
    simp [next]
  | @reference d cs hd =>
    obtain ⟨rfl, rfl⟩ := by simpa using htext
    have hne : d ≠ ':' := by
      rintro rfl
      simp [isNameStart_colon] at hd
    simp [next, hd, hne]
  | @plain c cs hquote hdash hslash hcolon =>
    obtain ⟨rfl, rfl⟩ := by simpa using htext
    by_cases hc : c = '\'' ∨ c = '"'
    · rcases hc with rfl | rfl <;> simp [next, hquote]
    · obtain ⟨hsingle, hdouble⟩ := not_or.mp hc
      cases cs with
      | nil => simp [next, hsingle, hdouble]
      | cons d ds =>
        by_cases hcd : c = '/' ∧ d = '*'
        · obtain ⟨rfl, rfl⟩ := hcd
          simp [next, hslash rfl ds rfl]
        · have h₁ : ¬ (c = '-' ∧ d = '-') := fun h => hdash h.1 (by simp [h.2])
          have h₂ : ¬ (c = ':' ∧ d = ':') := fun h => (hcolon h.1 d ds rfl).1 h.2
          have h₃ : ¬ (c = ':' ∧ isNameStart d = true) := by
            rintro ⟨hc, hd⟩
            simp [(hcolon hc d ds rfl).2] at hd
          simp [next, hsingle, hdouble, hcd, h₁, h₂, h₃]

/-- Every text that is not empty begins with a token. -/
lemma reads_next (c : Char) (cs : List Char) : Reads (c :: cs) (next c cs).1 (next c cs).2 := by
  by_cases hsingle : c = '\''
  · subst hsingle
    rcases hclose : closeQuote? '\'' cs with _ | ⟨inner, rest⟩
    · have hplain : Reads ('\'' :: cs) (.plain '\'') cs :=
        .plain (fun _ => hclose) (by simp) (by simp) (by simp)
      rwa [hplain.next_eq]
    · have hliteral : Reads ('\'' :: cs) (.literal inner) rest := .literal hclose
      rwa [hliteral.next_eq]
  by_cases hdouble : c = '"'
  · subst hdouble
    rcases hclose : closeQuote? '"' cs with _ | ⟨inner, rest⟩
    · have hplain : Reads ('"' :: cs) (.plain '"') cs :=
        .plain (fun _ => hclose) (by simp) (by simp) (by simp)
      rwa [hplain.next_eq]
    · have hidentifier : Reads ('"' :: cs) (.identifier inner) rest := .identifier hclose
      rwa [hidentifier.next_eq]
  have hquote : c = '\'' ∨ c = '"' → closeQuote? c cs = none := by
    rintro (h | h)
    · exact absurd h hsingle
    · exact absurd h hdouble
  -- every other token of its own kind begins with two characters
  rcases cs with _ | ⟨d, ds⟩
  · have hplain : Reads [c] (.plain c) [] := .plain hquote (by simp) (by simp) (by simp)
    rwa [hplain.next_eq]
  by_cases hdash : c = '-' ∧ d = '-'
  · obtain ⟨rfl, rfl⟩ := hdash
    have hcomment := Reads.lineComment ds
    rwa [hcomment.next_eq]
  by_cases hslash : c = '/' ∧ d = '*'
  · obtain ⟨rfl, rfl⟩ := hslash
    rcases hclose : closeComment? ds with _ | ⟨inner, rest⟩
    · have hplain : Reads ('/' :: '*' :: ds) (.plain '/') ('*' :: ds) :=
        .plain hquote (by simp) (by simp [hclose]) (by simp)
      rwa [hplain.next_eq]
    · have hcomment : Reads ('/' :: '*' :: ds) (.blockComment inner) rest := .blockComment hclose
      rwa [hcomment.next_eq]
  by_cases hcolon : c = ':'
  · subst hcolon
    by_cases hd : d = ':'
    · subst hd
      have hcast := Reads.cast ds
      rwa [hcast.next_eq]
    by_cases hname : isNameStart d = true
    · have hreference := Reads.reference ds hname
      rwa [hreference.next_eq]
    have hplain : Reads (':' :: d :: ds) (.plain ':') (d :: ds) :=
      .plain hquote (by simp) (by simp) (by simpa [hd] using hname)
    rwa [hplain.next_eq]
  have hplain : Reads (c :: d :: ds) (.plain c) (d :: ds) := by
    refine .plain hquote (fun hc => ?_) (fun hc => ?_) (fun hc => absurd hc hcolon)
    · simpa using fun hd => hdash ⟨hc, hd⟩
    · intro es hes
      obtain ⟨rfl, -⟩ := by simpa using hes
      exact absurd ⟨hc, rfl⟩ hslash
  rwa [hplain.next_eq]

/-- The characters that a token of more than one character begins with. -/
def tokenStarts : List Char := ['\'', '"', '-', '/', ':']

/-- Every other character is a token of its own. -/
lemma reads_plain {c : Char} (hc : c ∉ tokenStarts) (cs : List Char) :
    Reads (c :: cs) (.plain c) cs := by
  simp only [tokenStarts, List.mem_cons, List.not_mem_nil, or_false, not_or] at hc
  obtain ⟨hsingle, hdouble, hdash, hslash, hcolon⟩ := hc
  refine .plain (fun hquote => ?_) (fun h => absurd h hdash) (fun h => absurd h hslash)
    fun h => absurd h hcolon
  rcases hquote with h | h
  · exact absurd h hsingle
  · exact absurd h hdouble

lemma Reads.tokens_eq {cs rest : List Char} {t : Token} (h : Reads cs t rest) :
    tokens cs = t :: tokens rest := by
  have hne : cs ≠ [] := by
    rintro rfl
    simpa using h.length_lt
  obtain ⟨c, cs, rfl⟩ := List.exists_cons_of_ne_nil hne
  rw [tokens_cons, h.next_eq]

/-- What holds of the empty text, and of a text if it holds behind its first token, holds of
every text. -/
lemma reads_induction {P : List Char → Prop} (hnil : P [])
    (hstep : ∀ cs t rest, Reads cs t rest → P rest → P cs) (cs : List Char) : P cs := by
  -- the rest behind a token is shorter, but not by one character
  induction hn : cs.length using Nat.strongRecOn generalizing cs with
  | _ n ih =>
    cases cs with
    | nil => exact hnil
    | cons c cs =>
      have hreads := reads_next c cs
      exact hstep _ _ _ hreads (ih _ (hn ▸ hreads.length_lt) _ rfl)

/-! ## Quotes -/

section Quotes

variable {q : Char}

lemma closeQuote?_cons (c : Char) (cs : List Char) :
    closeQuote? q (c :: cs) =
      if c = q then
        if cs.head? = some q then
          match closeQuote? q cs.tail with
          | some (inner, rest) => some (c :: q :: inner, rest)
          | none => some ([], cs)
        else some ([], cs)
      else (closeQuote? q cs).map fun (inner, rest) => (c :: inner, rest) := by
  cases cs with
  | nil => simp [closeQuote?]
  | cons d ds =>
    by_cases hc : c = q
    · by_cases hd : d = q
      · subst hc hd
        rcases hrest : closeQuote? d ds with _ | ⟨inner, rest⟩ <;> simp [closeQuote?, hrest]
      · simp [closeQuote?, hc, hd]
    · simp only [closeQuote?, hc, if_false]
      cases closeQuote? q (d :: ds) <;> rfl

/-- A quote is never closed exactly if none follows. -/
lemma closeQuote?_eq_none_iff {cs : List Char} : closeQuote? q cs = none ↔ q ∉ cs := by
  induction cs with
  | nil => simp [closeQuote?]
  | cons c cs ih =>
    rw [closeQuote?_cons]
    by_cases hc : c = q
    · subst hc
      simp only [if_true, List.mem_cons, true_or, not_true, iff_false]
      split
      · split <;> simp
      · simp
    · rw [if_neg hc, Option.map_eq_none_iff, ih, List.mem_cons]
      simp [Ne.symm hc]

end Quotes

/-! ## Rows of tokens -/

/-- The text begins with the tokens, one behind the other, and the rest stands behind them. -/
inductive ReadsAll : List Char → List Token → List Char → Prop where
  | nil (cs : List Char) : ReadsAll cs [] cs
  | cons {cs rest rest' : List Char} {t : Token} {ts : List Token} :
      Reads cs t rest → ReadsAll rest ts rest' → ReadsAll cs (t :: ts) rest'

lemma readsAll_tokens (cs : List Char) : ReadsAll cs (tokens cs) [] := by
  refine reads_induction (P := fun cs => ReadsAll cs (tokens cs) [])
    (by simpa using ReadsAll.nil []) ?_ cs
  intro cs t rest h ih
  rw [h.tokens_eq]
  exact .cons h ih

lemma ReadsAll.text_append {cs rest : List Char} {ts : List Token} (h : ReadsAll cs ts rest) :
    ts.flatMap Token.text ++ rest = cs := by
  induction h with
  | nil cs => rfl
  | cons hread _ ih => rw [List.flatMap_cons, List.append_assoc, ih, hread.text_append]

lemma ReadsAll.tokens_eq {cs rest : List Char} {ts : List Token} (h : ReadsAll cs ts rest) :
    tokens cs = ts ++ tokens rest := by
  induction h with
  | nil cs => rfl
  | cons hread _ ih => rw [hread.tokens_eq, ih, List.cons_append]

/-- A row that is read in two parts. -/
lemma ReadsAll.exists_of_append {cs rest : List Char} {ts us : List Token}
    (h : ReadsAll cs (ts ++ us) rest) : ∃ mid, ReadsAll cs ts mid ∧ ReadsAll mid us rest := by
  induction ts generalizing cs with
  | nil => exact ⟨cs, .nil cs, h⟩
  | cons t ts ih =>
    cases h with
    | cons hread hall =>
      obtain ⟨mid, hts, hus⟩ := ih hall
      exact ⟨mid, .cons hread hts, hus⟩

end RevenueDesk.Sql
