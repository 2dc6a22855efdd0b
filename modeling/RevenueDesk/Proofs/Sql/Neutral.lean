/-
# Reading around a text that is inserted

A *neutral* text closes nothing that was opened before it.  When such a text is inserted
behind a token, the tokens before it are read as they were (`ReadsAll.insert`); so they are
when it is written on a line of its own at the end (`tokens_append_newline`).
-/
import RevenueDesk.Proofs.Sql.InStep

namespace RevenueDesk.Sql

/-- A text that closes nothing. -/
structure Neutral (xs : List Char) : Prop where
  ne_nil : xs ≠ []
  no_quote : ∀ c ∈ xs, c ≠ '\'' ∧ c ≠ '"'
  no_star : ∀ c ∈ xs, c ≠ '*'
  head?_ne : xs.head? ≠ some '/'

variable {xs : List Char}

lemma Neutral.not_mem_quote (h : Neutral xs) {q : Char} (hq : q = '\'' ∨ q = '"') : q ∉ xs := by
  intro hmem
  obtain ⟨hsingle, hdouble⟩ := h.no_quote q hmem
  rcases hq with rfl | rfl
  · exact hsingle rfl
  · exact hdouble rfl

lemma Neutral.head?_append_ne (h : Neutral xs) (ys : List Char) :
    (xs ++ ys).head? ≠ some '/' := by
  obtain ⟨x, xs, rfl⟩ := List.exists_cons_of_ne_nil h.ne_nil
  exact h.head?_ne

/-! ## One token -/

/-- A quote is closed where it was. -/
lemma closeQuote?_insert {q : Char} (hq : q = '\'' ∨ q = '"') (hxs : Neutral xs)
    {cs inner ys zs : List Char} (h : closeQuote? q cs = some (inner, ys ++ zs)) :
    closeQuote? q (inner ++ q :: (ys ++ (xs ++ zs))) = some (inner, ys ++ (xs ++ zs)) := by
  have hmem : q ∉ xs := hxs.not_mem_quote hq
  have hhead : (xs ++ zs).head? ≠ some q := by
    obtain ⟨x, xs, rfl⟩ := List.exists_cons_of_ne_nil hxs.ne_nil
    intro hhead
    obtain rfl : x = q := by simpa using hhead
    exact hmem List.mem_cons_self
  -- on the length, as two quotes that stand for one are passed over together
  induction hn : cs.length using Nat.strongRecOn generalizing cs inner with
  | _ n ih =>
    cases cs with
    | nil => simp [closeQuote?] at h
    | cons c cs =>
      rw [closeQuote?_cons] at h
      split at h
      · rename_i hc
        split at h
        · rename_i htwo
          obtain ⟨ds, rfl⟩ := List.head?_eq_some_iff.mp htwo
          rw [List.tail_cons] at h
          split at h
          · -- two quotes that are both inside
            rename_i inner' rest' hrest
            obtain ⟨rfl, rfl⟩ : c :: q :: inner' = inner ∧ rest' = ys ++ zs := by simpa using h
            have hlater := ih ds.length (by simp only [List.length_cons] at hn; omega) hrest rfl
            rw [List.cons_append, List.cons_append, closeQuote?_cons, if_pos hc,
              if_pos (by simp), List.tail_cons, hlater]
          · -- two quotes of which the first one closes, as none follows
            rename_i hnone
            obtain ⟨rfl, htext⟩ : [] = inner ∧ q :: ds = ys ++ zs := by simpa using h
            rw [List.nil_append, closeQuote?_cons, if_pos rfl]
            cases ys with
            | nil => rw [List.nil_append, if_neg hhead]
            | cons y ys =>
              obtain ⟨rfl, rfl⟩ : q = y ∧ ds = ys ++ zs := by simpa using htext
              have hlater : closeQuote? q (ys ++ (xs ++ zs)) = none := by
                rw [closeQuote?_eq_none_iff] at hnone ⊢
                simp only [List.mem_append, not_or] at hnone ⊢
                exact ⟨hnone.1, hmem, hnone.2⟩
              rw [List.cons_append, if_pos (by simp), List.tail_cons, hlater]
        · -- a single quote
          rename_i hone
          obtain ⟨rfl, rfl⟩ : [] = inner ∧ cs = ys ++ zs := by simpa using h
          rw [List.nil_append, closeQuote?_cons, if_pos rfl, if_neg]
          cases ys with
          | nil => exact hhead
          | cons y ys => exact hone
      · rename_i hc
        obtain ⟨⟨inner', rest'⟩, hcs, hpair⟩ := Option.map_eq_some_iff.mp h
        obtain ⟨rfl, rfl⟩ : c :: inner' = inner ∧ rest' = ys ++ zs := by simpa using hpair
        have hlater := ih cs.length (by simp only [List.length_cons] at hn; omega) hcs rfl
        rw [List.cons_append, closeQuote?_cons, if_neg hc, hlater]
        rfl

/-- A comment that was never closed is not closed now. -/
lemma closeComment?_insert (hxs : Neutral xs) {ys zs : List Char}
    (h : closeComment? (ys ++ zs) = none) : closeComment? (ys ++ (xs ++ zs)) = none := by
  induction ys with
  | nil =>
    rw [List.nil_append, closeComment?_append_of_no_star hxs.no_star]
    simpa using h
  | cons y ys ih =>
    rw [List.cons_append, closeComment?_cons] at h
    rw [List.cons_append, closeComment?_cons]
    split at h
    · simp at h
    · rename_i hclose
      have hne : ¬ (y = '*' ∧ (ys ++ (xs ++ zs)).head? = some '/') := by
        rintro ⟨rfl, hhead⟩
        cases ys with
        | nil => exact hxs.head?_append_ne zs hhead
        | cons d ds => exact hclose ⟨rfl, hhead⟩
      rw [if_neg hne, ih (by simpa using h)]
      rfl

/-- A token whose end is marked. -/
def Token.Delimited : Token → Prop
  | literal _ | identifier _ | blockComment _ => True
  | _ => False

/-- A token is read as before if more text stands between it and the insertion, if its own
end is marked, or if the insertion begins a new line. -/
lemma Reads.insert {cs ys zs : List Char} {t : Token} (h : Reads cs t (ys ++ zs))
    (hxs : Neutral xs) (hend : ys ≠ [] ∨ t.Delimited ∨ xs.head? = some '\n') :
    Reads (t.text ++ (ys ++ (xs ++ zs))) t (ys ++ (xs ++ zs)) := by
  generalize hrest : ys ++ zs = rest at h
  -- the character behind the token is the same, or a new line
  have hhead : ¬ t.Delimited → ∀ c, (ys ++ (xs ++ zs)).head? = some c →
      rest.head? = some c ∨ c = '\n' := by
    intro ht c hc
    cases ys with
    | nil =>
      have hnewline : xs.head? = some '\n' := by simpa [ht] using hend
      obtain ⟨ds, rfl⟩ := List.head?_eq_some_iff.mp hnewline
      exact Or.inr (by simpa using hc.symm)
    | cons y ys =>
      rw [← hrest]
      exact Or.inl hc
  cases h with
  | @literal cs inner rest h =>
    have hinsert := closeQuote?_insert (Or.inl rfl) hxs (hrest ▸ h)
    simpa [Token.text] using Reads.literal hinsert
  | @identifier cs inner rest h =>
    have hinsert := closeQuote?_insert (Or.inr rfl) hxs (hrest ▸ h)
    simpa [Token.text] using Reads.identifier hinsert
  | lineComment cs =>
    have hstop : ∀ c, (ys ++ (xs ++ zs)).head? = some c → (c != '\n') = false := by
      intro c hc
      rcases hhead id c hc with hsame | rfl
      · exact Text.head?_dropWhile cs c hsame
      · rfl
    obtain ⟨htake, hdrop⟩ := Text.cut_append (· != '\n') cs hstop
    have hread := Reads.lineComment (cs.takeWhile (· != '\n') ++ (ys ++ (xs ++ zs)))
    rwa [htake, hdrop] at hread
  | @blockComment cs inner rest h =>
    have hinsert : closeComment? (inner ++ '*' :: '/' :: (ys ++ (xs ++ zs))) =
        some (inner, ys ++ (xs ++ zs)) :=
      closeComment?_eq_some_iff.mpr ⟨rfl, (closeComment?_eq_some_iff.mp h).2⟩
    simpa [Token.text] using Reads.blockComment hinsert
  | cast => exact .cast _
  | @reference d cs hd =>
    have hstop : ∀ c, (ys ++ (xs ++ zs)).head? = some c → isNameChar c = false := by
      intro c hc
      rcases hhead id c hc with hsame | rfl
      · exact Text.head?_dropWhile cs c hsame
      · decide
    obtain ⟨htake, hdrop⟩ := Text.cut_append isNameChar cs hstop
    have hread := Reads.reference (cs.takeWhile isNameChar ++ (ys ++ (xs ++ zs))) hd
    rwa [htake, hdrop] at hread
  | @plain c _ hquote hdash hslash hcolon =>
    have hbehind := hhead id
    show Reads (c :: (ys ++ (xs ++ zs))) (.plain c) (ys ++ (xs ++ zs))
    refine .plain (fun hc => ?_) (fun hc hhead => ?_) (fun hc ds hds => ?_) fun hc d ds hds => ?_
    · -- no quote follows, and none is inserted
      have hnone := hquote hc
      have hmem := hxs.not_mem_quote hc
      rw [← hrest] at hnone
      rw [closeQuote?_eq_none_iff] at hnone ⊢
      simp only [List.mem_append, not_or] at hnone ⊢
      exact ⟨hnone.1, hmem, hnone.2⟩
    · rcases hbehind '-' hhead with hsame | hsame
      · exact hdash hc hsame
      · simp at hsame
    · cases ys with
      | nil =>
        obtain ⟨x, xs, rfl⟩ := List.exists_cons_of_ne_nil hxs.ne_nil
        obtain ⟨rfl, -⟩ : x = '*' ∧ xs ++ zs = ds := by simpa using hds
        exact absurd rfl (hxs.no_star '*' List.mem_cons_self)
      | cons y ys =>
        obtain ⟨rfl, rfl⟩ : y = '*' ∧ ys ++ (xs ++ zs) = ds := by simpa using hds
        exact closeComment?_insert hxs (hslash hc (ys ++ zs) hrest.symm)
    · rcases hbehind d (by rw [hds]; rfl) with hsame | rfl
      · obtain ⟨es, hes⟩ := List.head?_eq_some_iff.mp hsame
        exact hcolon hc d es hes
      · decide

/-! ## Rows of tokens -/

/-- Behind a token whose end is marked anything neutral can be inserted. -/
lemma ReadsAll.insert {cs zs : List Char} {ts : List Token} {t : Token}
    (h : ReadsAll cs (ts ++ [t]) zs) (hxs : Neutral xs) (ht : t.Delimited) :
    ReadsAll ((ts ++ [t]).flatMap Token.text ++ (xs ++ zs)) (ts ++ [t]) (xs ++ zs) := by
  induction ts generalizing cs with
  | nil =>
    cases h with
    | cons hread hnil =>
      cases hnil with
      | nil =>
        have hnext : Reads cs t ([] ++ zs) := hread
        have hinsert : Reads (t.text ++ (xs ++ zs)) t (xs ++ zs) :=
          hnext.insert hxs (Or.inr (Or.inl ht))
        simpa using ReadsAll.cons hinsert (.nil _)
  | cons u ts ih =>
    cases h with
    | @cons _ mid _ _ _ hread hall =>
      have hne : (ts ++ [t]).flatMap Token.text ≠ [] := by simp [t.text_ne_nil]
      rw [← hall.text_append] at hread
      have hinsert := hread.insert hxs (Or.inl hne)
      rw [List.cons_append, List.flatMap_cons, List.append_assoc]
      exact .cons hinsert (ih hall)

/-- At the end anything neutral can be written that begins a new line. -/
lemma ReadsAll.append_newline {cs : List Char} {ts : List Token} (h : ReadsAll cs ts [])
    (hxs : Neutral xs) (hnewline : xs.head? = some '\n') : ReadsAll (cs ++ xs) ts xs := by
  generalize hrest : ([] : List Char) = rest at h
  induction h with
  | nil cs =>
    rw [← hrest, List.nil_append]
    exact .nil xs
  | @cons cs rest rest' t ts hread hall ih =>
    have hnext : Reads cs t (rest ++ []) := by rwa [List.append_nil]
    have hinsert := hnext.insert hxs (Or.inr (Or.inr hnewline))
    rw [List.append_nil, ← List.append_assoc, hread.text_append] at hinsert
    exact .cons hinsert (ih hrest)

/-- The tokens of a text with another one on a line of its own behind it. -/
theorem tokens_append_newline (cs : List Char) (hxs : Neutral xs)
    (hnewline : xs.head? = some '\n') : tokens (cs ++ xs) = tokens cs ++ tokens xs :=
  ((readsAll_tokens cs).append_newline hxs hnewline).tokens_eq

end RevenueDesk.Sql
