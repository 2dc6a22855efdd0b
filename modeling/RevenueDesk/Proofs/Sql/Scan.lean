/-
# What the tokens of a text are

The tokens of a text, told without the function that finds them.  A literal or a quoted
identifier goes from a quote to a quote, with none but doubled quotes inside, and as far as
it can (`Quoted`); a block comment is closed as soon as it can be (`Commented`); a line
comment and the name of a reference end where they must.  `Opens` puts these together, and
`Scan` goes through a text with them: where no such token begins, the character stands for
itself.

Every text has one row of tokens, the one that is computed (`scan_iff`).
-/
import RevenueDesk.Proofs.Sql.Cutting

namespace RevenueDesk.Sql

/-- What stands inside quotes: quotes only in pairs. -/
inductive Inside (q : Char) : List Char → Prop where
  | nil : Inside q []
  | char {c : Char} {cs : List Char} : c ≠ q → Inside q cs → Inside q (c :: cs)
  | quotes {cs : List Char} : Inside q cs → Inside q (q :: q :: cs)

/-- Behind an opening quote stand `inner`, the closing quote and `rest`, and no quote further
on could close it. -/
structure Quoted (q : Char) (cs inner rest : List Char) : Prop where
  text : cs = inner ++ q :: rest
  inside : Inside q inner
  longest : ∀ inner' rest', cs = inner' ++ q :: rest' → Inside q inner' →
    inner'.length ≤ inner.length

/-- Behind the beginning of a block comment stand `inner`, its end and `rest`, and the comment
does not end earlier. -/
structure Commented (cs inner rest : List Char) : Prop where
  text : cs = inner ++ '*' :: '/' :: rest
  shortest : ∀ inner' rest', cs = inner' ++ '*' :: '/' :: rest' → inner.length ≤ inner'.length

/-- The text begins with a token of a kind of its own, and the rest stands behind it. -/
inductive Opens : List Char → Token → List Char → Prop where
  | literal {cs inner rest : List Char} (h : Quoted '\'' cs inner rest) :
      Opens ('\'' :: cs) (.literal inner) rest
  | identifier {cs inner rest : List Char} (h : Quoted '"' cs inner rest) :
      Opens ('"' :: cs) (.identifier inner) rest
  | lineComment {inner rest : List Char} (hinner : '\n' ∉ inner)
      (hrest : ∀ c ∈ rest.head?, c = '\n') :
      Opens ('-' :: '-' :: (inner ++ rest)) (.lineComment inner) rest
  | blockComment {cs inner rest : List Char} (h : Commented cs inner rest) :
      Opens ('/' :: '*' :: cs) (.blockComment inner) rest
  | cast (cs : List Char) : Opens (':' :: ':' :: cs) .cast cs
  | reference {d : Char} {name rest : List Char} (hd : isNameStart d = true)
      (hname : ∀ c ∈ name, isNameChar c = true) (hrest : ∀ c ∈ rest.head?, isNameChar c = false) :
      Opens (':' :: d :: (name ++ rest)) (.reference (d :: name)) rest

/-- A text from left to right: a token of a kind of its own where one begins, and else a
character. -/
inductive Scan : List Char → List Token → Prop where
  | nil : Scan [] []
  | token {cs rest : List Char} {t : Token} {ts : List Token} :
      Opens cs t rest → Scan rest ts → Scan cs (t :: ts)
  | plain {c : Char} {cs : List Char} {ts : List Token} :
      (∀ t rest, ¬ Opens (c :: cs) t rest) → Scan cs ts → Scan (c :: cs) (.plain c :: ts)

/-! ## Quotes -/

section Quotes

variable {q : Char} {cs inner rest : List Char}

/-- What is found between the quotes has quotes only in pairs. -/
lemma inside_of_closeQuote? (h : closeQuote? q cs = some (inner, rest)) : Inside q inner := by
  induction hn : cs.length using Nat.strongRecOn generalizing cs inner with
  | _ n ih =>
    cases cs with
    | nil => simp [closeQuote?] at h
    | cons c cs =>
      rw [closeQuote?_cons] at h
      split at h
      · rename_i hc
        split at h
        · rename_i hhead
          split at h
          · rename_i inner' rest' hrest
            obtain ⟨rfl, rfl⟩ : c :: q :: inner' = inner ∧ rest' = rest := by simpa using h
            have hlen : cs.tail.length < n := by
              rw [← hn, List.length_tail, List.length_cons]
              omega
            rw [hc]
            exact .quotes (ih _ hlen hrest rfl)
          · obtain ⟨rfl, -⟩ : [] = inner ∧ cs = rest := by simpa using h
            exact .nil
        · obtain ⟨rfl, -⟩ : [] = inner ∧ cs = rest := by simpa using h
          exact .nil
      · rename_i hc
        obtain ⟨⟨inner', rest'⟩, hrest, heq⟩ := Option.map_eq_some_iff.mp h
        obtain ⟨rfl, rfl⟩ : c :: inner' = inner ∧ rest' = rest := by simpa using heq
        have hlen : cs.length < n := by rw [← hn, List.length_cons]; omega
        exact .char hc (ih _ hlen hrest rfl)

/-- Wherever a quote could be closed, it is closed there or further on. -/
lemma closeQuote?_longest {inner' rest' : List Char} (hinside : Inside q inner')
    (htext : cs = inner' ++ q :: rest') :
    ∃ inner rest, closeQuote? q cs = some (inner, rest) ∧ inner'.length ≤ inner.length := by
  induction hinside generalizing cs with
  | nil =>
    have hmem : q ∈ cs := by simp [htext]
    have hsome : closeQuote? q cs ≠ none := by rwa [Ne, closeQuote?_eq_none_iff, not_not]
    obtain ⟨⟨inner, rest⟩, hclose⟩ := Option.ne_none_iff_exists'.mp hsome
    exact ⟨inner, rest, hclose, Nat.zero_le _⟩
  | @char c inner' hc _ ih =>
    obtain ⟨inner, rest, hclose, hle⟩ := ih rfl
    refine ⟨c :: inner, rest, ?_, Nat.succ_le_succ hle⟩
    rw [htext, List.cons_append, closeQuote?_cons, if_neg hc, hclose, Option.map_some]
  | @quotes inner' _ ih =>
    obtain ⟨inner, rest, hclose, hle⟩ := ih rfl
    refine ⟨q :: q :: inner, rest, ?_, Nat.succ_le_succ (Nat.succ_le_succ hle)⟩
    rw [htext, List.cons_append, closeQuote?_cons, if_pos rfl, List.cons_append, List.head?_cons,
      if_pos rfl, List.tail_cons, hclose]

/-- The function that closes quotes finds the longest quoted text. -/
theorem closeQuote?_iff : closeQuote? q cs = some (inner, rest) ↔ Quoted q cs inner rest := by
  constructor
  · intro h
    refine ⟨closeQuote?_eq h, inside_of_closeQuote? h, ?_⟩
    intro inner' rest' htext hinside
    obtain ⟨i, r, hclose, hle⟩ := closeQuote?_longest hinside htext
    obtain ⟨rfl, rfl⟩ : inner = i ∧ rest = r := by simpa [h] using hclose
    exact hle
  · rintro ⟨htext, hinside, hlongest⟩
    obtain ⟨i, r, hclose, hle⟩ := closeQuote?_longest hinside htext
    have htext' := closeQuote?_eq hclose
    have hlen : inner.length = i.length :=
      le_antisymm hle (hlongest i r htext' (inside_of_closeQuote? hclose))
    obtain ⟨rfl, hrest⟩ := List.append_inj (htext.symm.trans htext') hlen
    rw [hclose, (List.cons.inj hrest).2]

end Quotes

/-! ## Block comments -/

section Comments

variable {cs inner rest : List Char}

/-- Wherever a comment could end, it ends there or earlier. -/
lemma closeComment?_shortest {inner' rest' : List Char}
    (htext : cs = inner' ++ '*' :: '/' :: rest') :
    ∃ inner rest, closeComment? cs = some (inner, rest) ∧ inner.length ≤ inner'.length := by
  induction inner' generalizing cs with
  | nil => exact ⟨[], rest', by simp [htext, closeComment?], le_rfl⟩
  | cons c inner' ih =>
    obtain ⟨inner, rest, hclose, hle⟩ := ih rfl
    obtain ⟨d, ds, hds⟩ : ∃ d ds, inner' ++ '*' :: '/' :: rest' = d :: ds :=
      List.exists_cons_of_ne_nil (by simp)
    rw [htext, List.cons_append, hds, closeComment?]
    rw [hds] at hclose
    split
    · exact ⟨[], ds, rfl, Nat.zero_le _⟩
    · exact ⟨c :: inner, rest, by rw [hclose], Nat.succ_le_succ hle⟩

/-- The function that closes comments finds the first end. -/
theorem closeComment?_iff : closeComment? cs = some (inner, rest) ↔ Commented cs inner rest := by
  constructor
  · intro h
    refine ⟨closeComment?_eq h, ?_⟩
    intro inner' rest' htext
    obtain ⟨i, r, hclose, hle⟩ := closeComment?_shortest htext
    obtain ⟨rfl, rfl⟩ : inner = i ∧ rest = r := by simpa [h] using hclose
    exact hle
  · rintro ⟨htext, hshortest⟩
    obtain ⟨i, r, hclose, hle⟩ := closeComment?_shortest htext
    have htext' := closeComment?_eq hclose
    have hlen : inner.length = i.length := le_antisymm (hshortest i r htext') hle
    obtain ⟨rfl, hrest⟩ := List.append_inj (htext.symm.trans htext') hlen
    rw [hclose, (List.cons.inj (List.cons.inj hrest).2).2]

end Comments

/-! ## Tokens -/

section Tokens

variable {cs rest : List Char} {t : Token} {ts : List Token}

lemma Opens.reads (h : Opens cs t rest) : Reads cs t rest := by
  cases h with
  | literal h => exact .literal (closeQuote?_iff.mpr h)
  | identifier h => exact .identifier (closeQuote?_iff.mpr h)
  | @lineComment inner rest hinner hrest =>
    have hspan : (inner ++ rest).takeWhile (· != '\n') = inner ∧
        (inner ++ rest).dropWhile (· != '\n') = rest := by
      refine Text.span_eq (fun c hc => ?_) fun c hc => by simp [hrest c hc]
      have hne : c ≠ '\n' := fun h => hinner (h ▸ hc)
      simpa using hne
    have hreads := Reads.lineComment (inner ++ rest)
    rwa [hspan.1, hspan.2] at hreads
  | blockComment h => exact .blockComment (closeComment?_iff.mpr h)
  | cast => exact .cast _
  | @reference d name rest hd hname hrest =>
    have hspan := Text.span_eq hname hrest
    have hreads := Reads.reference (name ++ rest) hd
    rwa [hspan.1, hspan.2] at hreads

/-- A token of a kind of its own is not a character. -/
lemma not_opens_plain {c : Char} : ¬ Opens cs (.plain c) rest := by
  intro h
  cases h

/-- A token that is read is either of a kind of its own, or a character where none begins. -/
lemma Reads.opens_or_plain (h : Reads cs t rest) :
    Opens cs t rest ∨
      ∃ c, cs = c :: rest ∧ t = .plain c ∧ ∀ t' rest', ¬ Opens (c :: rest) t' rest' := by
  cases h with
  | literal h => exact .inl (.literal (closeQuote?_iff.mp h))
  | identifier h => exact .inl (.identifier (closeQuote?_iff.mp h))
  | lineComment cs =>
    have hopens : Opens ('-' :: '-' :: (cs.takeWhile (· != '\n') ++ cs.dropWhile (· != '\n')))
        (.lineComment (cs.takeWhile (· != '\n'))) (cs.dropWhile (· != '\n')) := by
      refine .lineComment (fun hmem => ?_) fun _ => Text.eq_of_head?_dropWhile_ne
      simpa using List.mem_takeWhile_imp hmem
    rw [List.takeWhile_append_dropWhile] at hopens
    exact .inl hopens
  | blockComment h => exact .inl (.blockComment (closeComment?_iff.mp h))
  | cast => exact .inl (.cast _)
  | @reference d cs hd =>
    have hopens : Opens (':' :: d :: (cs.takeWhile isNameChar ++ cs.dropWhile isNameChar))
        (.reference (d :: cs.takeWhile isNameChar)) (cs.dropWhile isNameChar) :=
      .reference hd (fun c hc => List.mem_takeWhile_imp hc) (Text.head?_dropWhile cs)
    rw [List.takeWhile_append_dropWhile] at hopens
    exact .inl hopens
  | @plain c cs hquote hdash hslash hcolon =>
    refine .inr ⟨c, rfl, rfl, fun t' rest' hopens => ?_⟩
    -- a text begins with one token only
    have hplain := (Reads.plain hquote hdash hslash hcolon).next_eq
    obtain ⟨rfl, -⟩ := Prod.mk.inj (hopens.reads.next_eq.symm.trans hplain)
    exact not_opens_plain hopens

/-- A text has one row of tokens, the one that is computed. -/
theorem scan_iff : Scan cs ts ↔ ts = tokens cs := by
  constructor
  · intro h
    induction h with
    | nil => exact tokens_nil.symm
    | token hopens _ ih => rw [hopens.reads.tokens_eq, ih]
    | @plain c cs ts hnone _ ih =>
      rcases (reads_next c cs).opens_or_plain with hopens | ⟨d, htext, hplain, -⟩
      · exact absurd hopens (hnone _ _)
      · obtain ⟨rfl, hrest⟩ := List.cons.inj htext
        rw [tokens_cons, hplain, ← hrest, ih]
  · rintro rfl
    refine reads_induction (P := fun cs => Scan cs (tokens cs)) (by simpa using Scan.nil) ?_ cs
    intro cs t rest hreads ih
    rw [hreads.tokens_eq]
    rcases hreads.opens_or_plain with hopens | ⟨c, rfl, rfl, hnone⟩
    · exact .token hopens ih
    · exact .plain hnone ih

end Tokens

end RevenueDesk.Sql
