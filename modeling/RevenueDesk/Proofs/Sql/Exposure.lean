/-
# What stands outside of quotes and comments

The *exposed* text is what is left of a query when every literal, every quoted identifier and
every comment gives way to a space.  The guard does not look at it: it looks at the query
without what it takes for comments.  If it is in step with the tokens it sees all that is
exposed, and only where it joins two words over a comment it can miss one:

* `words_exposed_subset`: every exposed word is one that the guard sees;
* `safe_exposed`: of a query that is accepted nothing dangerous is exposed.
-/
import RevenueDesk.Proofs.Sql.InStep

namespace RevenueDesk.Sql

/-! ## The exposed text -/

/-- What is exposed of a token. -/
def Token.exposed : Token → List Char
  | literal _ | identifier _ | lineComment _ | blockComment _ => [' ']
  | t => t.text

/-- What is exposed of a row of tokens. -/
def exposed (ts : List Token) : List Char := ts.flatMap Token.exposed

/-- A text in which no token begins but single characters is exposed as it is. -/
lemma exposed_tokens_append {xs : List Char} (h : ∀ c ∈ xs, c ∉ tokenStarts) (ys : List Char) :
    exposed (tokens (xs ++ ys)) = xs ++ exposed (tokens ys) := by
  induction xs with
  | nil => rfl
  | cons c cs ih =>
    obtain ⟨hc, hcs⟩ := List.forall_mem_cons.mp h
    rw [List.cons_append, (reads_plain hc _).tokens_eq, exposed, List.flatMap_cons]
    exact congrArg (c :: ·) (ih hcs)

/-- There is no dangerous word in the text and no semicolon. -/
def Safe (text : List Char) : Prop := (∀ w ∈ Text.words text, ¬ Dangerous w) ∧ ';' ∉ text

instance (text : List Char) : Decidable (Safe text) :=
  inferInstanceAs (Decidable ((∀ w ∈ Text.words text, ¬ Dangerous w) ∧ ';' ∉ text))

/-- The two texts make up a longer word where they meet. -/
def Joined (before behind : List Char) : Prop :=
  ∃ c ∈ before.getLast?, ∃ d ∈ behind.head?, Text.isWord c = true ∧ Text.isWord d = true

/-- No block comment in a row of tokens, with the text before the row, is all that stands
between two words. -/
def Apart (before : List Char) : List Token → Prop
  | [] => True
  | t :: ts =>
    (∀ inner, t = .blockComment inner → ¬ Joined before (ts.flatMap Token.visible)) ∧
      Apart (before ++ t.text) ts

lemma Joined.append_left {before behind : List Char} (h : Joined before behind)
    (xs : List Char) : Joined (xs ++ before) behind := by
  obtain ⟨c, hc, hd⟩ := h
  refine ⟨c, ?_, hd⟩
  rw [Option.mem_def] at hc
  simp [List.getLast?_append, hc]

lemma Apart.of_append {xs before : List Char} {ts : List Token} (h : Apart (xs ++ before) ts) :
    Apart before ts := by
  induction ts generalizing before with
  | nil => trivial
  | cons t ts ih =>
    obtain ⟨hcomment, hrest⟩ := h
    rw [List.append_assoc] at hrest
    exact ⟨fun inner ht hjoined => hcomment inner ht (hjoined.append_left xs), ih hrest⟩

/-! ## Words -/

lemma words_append {xs ys : List Char} (h : ¬ Joined xs ys) :
    Text.words (xs ++ ys) = Text.words xs ++ Text.words ys := by
  refine Text.runs_append ?_
  by_contra hboth
  obtain ⟨⟨c, hc, hcw⟩, d, hd, hdw⟩ := by simpa [not_or] using hboth
  exact h ⟨c, hc, d, hd, hcw, hdw⟩

/-- Between two texts that are joined by nothing. -/
lemma mem_words_space {u behind behind' : List Char} {w : List Char} (hu : ¬ Joined u behind')
    (hsub : ∀ w ∈ Text.words behind, w ∈ Text.words behind')
    (hw : w ∈ Text.words (u ++ (' ' :: behind))) : w ∈ Text.words (u ++ behind') := by
  rw [Text.words_append_cons (by decide), List.mem_append] at hw
  rw [words_append hu, List.mem_append]
  exact hw.imp_right (hsub w)

/-- Across a quoted token. -/
lemma mem_words_quoted {q : Char} (hq : Text.isWord q = false) {u inner behind behind' : List Char}
    {w : List Char} (hsub : ∀ w ∈ Text.words behind, w ∈ Text.words behind')
    (hw : w ∈ Text.words (u ++ (' ' :: behind))) :
    w ∈ Text.words (u ++ (q :: inner ++ [q] ++ behind')) := by
  have htext : q :: inner ++ [q] ++ behind' = q :: (inner ++ q :: behind') := by simp
  rw [Text.words_append_cons (by decide), List.mem_append] at hw
  rw [htext, Text.words_append_cons hq, Text.words_append_cons hq, List.mem_append,
    List.mem_append]
  exact hw.imp_right fun h => Or.inr (hsub w h)

/-- The text behind a line comment does not begin with a word. -/
lemma not_joined_of_lineComment {cs rest inner : List Char}
    (h : Reads cs (.lineComment inner) rest) (u : List Char) :
    ¬ Joined u (uncommented rest) := by
  rintro ⟨c, -, d, hd, -, hdw⟩
  cases h with
  | lineComment cs =>
    rcases hrest : cs.dropWhile (· != '\n') with _ | ⟨e, es⟩
    · simp [hrest] at hd
    · obtain rfl : e = '\n' := Text.eq_of_head?_dropWhile_ne (by rw [hrest, List.head?_cons])
      rw [hrest, uncommented_cons (by simp) (by simp)] at hd
      obtain rfl : '\n' = d := by simpa using hd
      exact absurd hdw (by decide)

/-- Every exposed word is one that the guard sees, if it is in step and joins no words. -/
theorem words_exposed_subset (cs : List Char) :
    ∀ u, InStep (tokens cs) → Apart u (tokens cs) →
      ∀ w ∈ Text.words (u ++ exposed (tokens cs)), w ∈ Text.words (u ++ uncommented cs) := by
  refine reads_induction (P := fun cs => ∀ u, InStep (tokens cs) → Apart u (tokens cs) →
    ∀ w ∈ Text.words (u ++ exposed (tokens cs)), w ∈ Text.words (u ++ uncommented cs)) ?_ ?_ cs
  · intro u _ _ w hw
    simpa [exposed] using hw
  · intro cs t rest h ih u hstep hapart w hw
    rw [h.tokens_eq] at hstep hapart hw
    obtain ⟨ht, hrest⟩ := List.forall_mem_cons.mp hstep
    obtain ⟨hcomment, hbehind⟩ := hapart
    have hsub := ih [] hrest (Apart.of_append (by simpa using hbehind))
    rw [h.uncommented_eq ht]
    rw [exposed, List.flatMap_cons] at hw
    -- what is neither quoted nor a comment is the same in both texts
    have hsame : t.exposed = t.text → t.visible = t.text →
        w ∈ Text.words (u ++ (t.visible ++ uncommented rest)) := by
      intro hexposed hvisible
      rw [hexposed, ← List.append_assoc] at hw
      rw [hvisible, ← List.append_assoc]
      exact ih (u ++ t.text) hrest hbehind w hw
    cases t with
    | literal inner => exact mem_words_quoted (by decide) hsub hw
    | identifier inner => exact mem_words_quoted (by decide) hsub hw
    | lineComment inner =>
      exact mem_words_space (not_joined_of_lineComment h u) hsub hw
    | blockComment inner =>
      refine mem_words_space ?_ hsub hw
      rw [uncommented_of_inStep hrest]
      exact hcomment inner rfl
    | cast => exact hsame rfl rfl
    | reference name => exact hsame rfl rfl
    | plain c => exact hsame rfl rfl

/-! ## Characters -/

/-- What is exposed of a token, the spaces in the place of others apart, is visible. -/
lemma Token.mem_visible_of_mem_exposed {t : Token} {c : Char} (hc : c ≠ ' ')
    (h : c ∈ t.exposed) : c ∈ t.visible := by
  cases t with
  | literal inner => simp [Token.exposed, hc] at h
  | identifier inner => simp [Token.exposed, hc] at h
  | lineComment inner => simp [Token.exposed, hc] at h
  | blockComment inner => simp [Token.exposed, hc] at h
  | cast => exact h
  | reference name => exact h
  | plain d => exact h

lemma mem_uncommented_of_mem_exposed {cs : List Char} {c : Char} (hstep : InStep (tokens cs))
    (hc : c ≠ ' ') (h : c ∈ exposed (tokens cs)) : c ∈ uncommented cs := by
  obtain ⟨t, ht, hct⟩ := List.mem_flatMap.mp h
  rw [uncommented_of_inStep hstep]
  exact List.mem_flatMap.mpr ⟨t, ht, t.mem_visible_of_mem_exposed hc hct⟩

/-! ## Queries that are accepted -/

section Accepted

variable {cs : List Char} (h : Clean (normalize cs))
include h

/-- No semicolon is exposed if the guard is in step. -/
theorem semicolon_not_exposed (hstep : InStep (tokens cs)) : ';' ∉ exposed (tokens cs) :=
  fun hmem => h.semicolon_not_mem (mem_uncommented_of_mem_exposed hstep (by decide) hmem)

/-- Nothing dangerous is exposed if, in addition, it joins no words. -/
theorem safe_exposed (hstep : InStep (tokens cs)) (hapart : Apart [] (tokens cs)) :
    Safe (exposed (tokens cs)) := by
  refine ⟨fun w hw => ?_, semicolon_not_exposed h hstep⟩
  have hseen := words_exposed_subset cs [] hstep hapart w (by simpa using hw)
  exact h.harmless_uncommented w (by simpa using hseen)

/-- What is exposed is safe exactly if the guard has seen every dangerous word and every
semicolon in it. -/
theorem safe_exposed_iff : Safe (exposed (tokens cs)) ↔
    (∀ w ∈ Text.words (exposed (tokens cs)), Dangerous w → w ∈ Text.words (uncommented cs)) ∧
      (';' ∈ exposed (tokens cs) → ';' ∈ uncommented cs) := by
  constructor
  · rintro ⟨hwords, hsemicolon⟩
    exact ⟨fun w hw hdanger => absurd hdanger (hwords w hw), fun hmem => absurd hmem hsemicolon⟩
  · rintro ⟨hwords, hsemicolon⟩
    refine ⟨fun w hw hdanger => ?_, fun hmem => h.semicolon_not_mem (hsemicolon hmem)⟩
    exact h.harmless_uncommented w (hwords w hw hdanger) hdanger

end Accepted

end RevenueDesk.Sql
