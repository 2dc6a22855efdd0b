/-
# The guard in step with the tokens

The guard takes comments out of a text without regard to quotes.  It is *in step* with the
tokens of a text if no token makes it lose its place: if, reading each token on its own, it
is outside of every comment behind it.  Then it reads the text token by token
(`ReadsAll.uncommented_eq`): the comments are taken out, from literals and quoted identifiers
also what looks like one, and all the rest is kept.
-/
import RevenueDesk.Proofs.Sql.Rewriting

namespace RevenueDesk.Sql

/-! ## Tokens that the guard leaves as it enters them -/

/-- Behind the token the guard is outside of every comment: no line comment that begins
inside reaches the end, and no block comment that begins inside is left open.  What is
inside a block comment can only hide its end. -/
def Token.Settled : Token → Prop
  | literal inner | identifier inner =>
    endsInside false inner = false ∧ leftOpen (dropLineComments false inner) = false
  | blockComment inner => endsInside false inner = false
  | _ => True

instance : DecidablePred Token.Settled := fun t => by
  cases t <;> unfold Token.Settled <;> infer_instance

/-- No token makes the guard lose its place. -/
def InStep (ts : List Token) : Prop := ∀ t ∈ ts, t.Settled

instance (ts : List Token) : Decidable (InStep ts) :=
  inferInstanceAs (Decidable (∀ t ∈ ts, t.Settled))

/-- What the guard keeps of a token that it is in step with. -/
def Token.visible : Token → List Char
  | literal inner => '\'' :: uncommented inner ++ ['\'']
  | identifier inner => '"' :: uncommented inner ++ ['"']
  | lineComment _ | blockComment _ => []
  | t => t.text

/-! ## One token -/

variable {cs rest inner : List Char}

/-- A character that begins no comment is kept. -/
lemma uncommented_cons {c : Char} (hdash : c = '-' → cs.head? ≠ some '-')
    (hslash : c = '/' → ∀ ds, dropLineComments false cs = '*' :: ds → closeComment? ds = none) :
    uncommented (c :: cs) = c :: uncommented cs := by
  unfold uncommented
  rw [dropLineComments_outside, if_neg fun h => hdash h.1 h.2, dropBlockComments_cons hslash]

/-- Without line comments no comment is closed that was not closed before. -/
lemma closeComment?_dropLineComments (inside : Bool) (h : closeComment? cs = none) :
    closeComment? (dropLineComments inside cs) = none := by
  induction cs generalizing inside with
  | nil => simp [closeComment?]
  | cons c cs ih =>
    rw [closeComment?_cons] at h
    split at h
    · simp at h
    · rename_i hclose
      have hrest : closeComment? cs = none := by simpa using h
      cases inside with
      | true =>
        rw [dropLineComments_inside]
        split
        · rw [closeComment?_cons, if_neg (by simp), ih false hrest]
          rfl
        · exact ih true hrest
      | false =>
        rw [dropLineComments_outside]
        split
        · exact ih true hrest
        · rw [closeComment?_cons, ih false hrest]
          rw [if_neg]
          · rfl
          · rintro ⟨rfl, hhead⟩
            -- a slash that is left behind the star stood there before
            rcases head?_dropLineComments hhead with hslash | hslash
            · exact hclose ⟨rfl, hslash⟩
            · simp at hslash

/-- A comment is closed by the first star and slash. -/
lemma closeComment?_eq_some_iff :
    closeComment? cs = some (inner, rest) ↔
      cs = inner ++ '*' :: '/' :: rest ∧ closeComment? (inner ++ ['*']) = none := by
  induction cs generalizing inner with
  | nil => simp [closeComment?]
  | cons c cs ih =>
    rw [closeComment?_cons]
    split
    · rename_i hc
      obtain ⟨ds, rfl⟩ := List.head?_eq_some_iff.mp hc.2
      constructor
      · intro h
        obtain ⟨rfl, rfl⟩ : [] = inner ∧ ds = rest := by simpa using h
        exact ⟨by simp [hc.1], rfl⟩
      · rintro ⟨htext, hnone⟩
        cases inner with
        | nil =>
          obtain ⟨-, rfl⟩ : c = '*' ∧ ds = rest := by simpa using htext
          rfl
        | cons d inner =>
          -- the star and the slash would stand inside
          obtain ⟨rfl, htext⟩ : c = d ∧ '/' :: ds = inner ++ '*' :: '/' :: rest := by
            simpa using htext
          rw [List.cons_append, closeComment?_cons] at hnone
          have hhead : (inner ++ ['*']).head? = some '/' := by
            cases inner with
            | nil => simp at htext
            | cons e inner => simp_all
          simp [hc.1, hhead] at hnone
    · rename_i hc
      constructor
      · intro h
        obtain ⟨⟨inner', rest'⟩, hcs, hpair⟩ := Option.map_eq_some_iff.mp h
        obtain ⟨rfl, rfl⟩ := by simpa using hpair
        obtain ⟨rfl, hnone⟩ := ih.mp hcs
        refine ⟨rfl, ?_⟩
        rw [List.cons_append, closeComment?_cons, hnone, if_neg]
        · rfl
        · rintro ⟨rfl, hhead⟩
          refine hc ⟨rfl, ?_⟩
          cases inner' with
          | nil => simp at hhead
          | cons e inner => simpa using hhead
      · rintro ⟨htext, hnone⟩
        cases inner with
        | nil =>
          obtain ⟨rfl, rfl⟩ := by simpa using htext
          simp at hc
        | cons d inner =>
          obtain ⟨rfl, rfl⟩ := by simpa using htext
          rw [List.cons_append, closeComment?_cons] at hnone
          split at hnone
          · simp at hnone
          · rw [ih.mpr ⟨rfl, by simpa using hnone⟩]
            rfl

section Quoted

variable {q : Char} (hq : q = '\'' ∨ q = '"')
include hq

/-- A quote is no part of a comment mark. -/
lemma quote_ne : q ≠ '-' ∧ q ≠ '\n' ∧ q ≠ '/' ∧ q ≠ '*' := by
  rcases hq with rfl | rfl <;> decide

lemma uncommented_quote (ds : List Char) : uncommented (q :: ds) = q :: uncommented ds := by
  obtain ⟨hdash, -, hslash, -⟩ := quote_ne hq
  exact uncommented_cons (fun h => absurd h hdash) fun h => absurd h hslash

/-- Between two quotes. -/
lemma uncommented_quoted (hline : endsInside false inner = false)
    (hblock : leftOpen (dropLineComments false inner) = false) (rest : List Char) :
    uncommented (q :: (inner ++ q :: rest)) =
      q :: (uncommented inner ++ q :: uncommented rest) := by
  obtain ⟨hdash, -, hslash, hstar⟩ := quote_ne hq
  have hlines : dropLineComments false (inner ++ q :: rest) =
      dropLineComments false inner ++ q :: dropLineComments false rest := by
    rw [dropLineComments_append (by simp [hdash]), hline, dropLineComments_outside,
      if_neg fun h => hdash h.1]
  rw [uncommented_quote hq]
  congr 1
  unfold uncommented
  rw [hlines, dropBlockComments_append hblock (by simp [hstar]),
    dropBlockComments_cons_of_ne fun h => hslash h.1]

end Quoted

/-- A block comment is taken out if nothing inside hides its end. -/
lemma uncommented_blockComment (h : closeComment? cs = some (inner, rest))
    (hline : endsInside false inner = false) :
    uncommented ('/' :: '*' :: cs) = uncommented rest := by
  obtain ⟨rfl, hnone⟩ := closeComment?_eq_some_iff.mp h
  have hlines : ∀ ds, dropLineComments false (inner ++ '*' :: ds) =
      dropLineComments false inner ++ '*' :: dropLineComments false ds := by
    intro ds
    rw [dropLineComments_append (by simp), hline, dropLineComments_outside, if_neg (by simp)]
  have hend : dropLineComments false ('/' :: '*' :: (inner ++ '*' :: '/' :: rest)) =
      '/' :: '*' ::
        (dropLineComments false inner ++ '*' :: '/' :: dropLineComments false rest) := by
    simp [dropLineComments_outside, hlines]
  have hclose : closeComment? (dropLineComments false inner ++
      '*' :: '/' :: dropLineComments false rest) =
        some (dropLineComments false inner, dropLineComments false rest) := by
    refine closeComment?_eq_some_iff.mpr ⟨rfl, ?_⟩
    have hclosed := closeComment?_dropLineComments false hnone
    rwa [hlines, dropLineComments_nil] at hclosed
  unfold uncommented
  rw [hend, dropBlockComments_of_closed hclose]

/-- A line comment is taken out up to the end of the line. -/
lemma uncommented_lineComment (hline : ∀ c ∈ inner, c ≠ '\n')
    (hrest : ∀ c, rest.head? = some c → c = '\n') :
    uncommented ('-' :: '-' :: (inner ++ rest)) = uncommented rest := by
  have hend : dropLineComments true rest = dropLineComments false rest := by
    cases rest with
    | nil => simp
    | cons d ds =>
      obtain rfl := hrest d rfl
      simp [dropLineComments_inside, dropLineComments_outside]
  unfold uncommented
  rw [dropLineComments_outside, if_pos (by simp), dropLineComments_inside, if_neg (by simp),
    dropLineComments_append_of_no_newline hline, hend]

/-- The guard keeps of the token what is visible of it, and goes on behind it. -/
lemma Reads.uncommented_eq {t : Token} (h : Reads cs t rest) (ht : t.Settled) :
    uncommented cs = t.visible ++ uncommented rest := by
  cases h with
  | @literal cs inner rest h =>
    rw [closeQuote?_eq h, uncommented_quoted (Or.inl rfl) ht.1 ht.2]
    simp [Token.visible]
  | @identifier cs inner rest h =>
    rw [closeQuote?_eq h, uncommented_quoted (Or.inr rfl) ht.1 ht.2]
    simp [Token.visible]
  | lineComment cs =>
    have hline : ∀ c ∈ cs.takeWhile (· != '\n'), c ≠ '\n' := by
      intro c hc
      simpa using List.mem_takeWhile_imp hc
    have hrest : ∀ c, (cs.dropWhile (· != '\n')).head? = some c → c = '\n' :=
      fun _ => Text.eq_of_head?_dropWhile_ne
    have hcomment := uncommented_lineComment hline hrest
    rwa [List.takeWhile_append_dropWhile] at hcomment
  | blockComment h => exact uncommented_blockComment h ht
  | cast =>
    have hcolons : ∀ c ∈ [':', ':'], c ≠ '-' ∧ c ≠ '/' := by decide
    exact uncommented_append hcolons rest
  | @reference d cs hd =>
    have hname := (Reads.reference cs hd).isName.inert
    rw [← (Reads.reference cs hd).text_append]
    exact uncommented_append (fun c hc => ⟨(hname c hc).ne_dash, (hname c hc).ne_slash⟩) _
  | @plain c cs hquote hdash hslash hcolon =>
    refine uncommented_cons hdash fun hc ds hds => ?_
    -- a star that is left behind the slash stood there before
    have hhead : (dropLineComments false rest).head? = some '*' := by simp [hds]
    rcases head?_dropLineComments hhead with hstar | hstar
    · obtain ⟨es, rfl⟩ := List.head?_eq_some_iff.mp hstar
      rw [dropLineComments_outside, if_neg (by simp)] at hds
      obtain rfl : dropLineComments false es = ds := by simpa using hds
      exact closeComment?_dropLineComments false (hslash hc es rfl)
    · simp at hstar

/-! ## Rows of tokens -/

/-- What the guard keeps of a row of tokens that it is in step with. -/
theorem ReadsAll.uncommented_eq {ts : List Token} (h : ReadsAll cs ts rest) (hts : InStep ts) :
    uncommented cs = ts.flatMap Token.visible ++ uncommented rest := by
  induction h with
  | nil cs => rfl
  | @cons cs rest rest' t ts hread _ ih =>
    obtain ⟨ht, hrest⟩ := List.forall_mem_cons.mp hts
    rw [hread.uncommented_eq ht, ih hrest, List.flatMap_cons, List.append_assoc]

/-- What the guard keeps of a text that it is in step with. -/
theorem uncommented_of_inStep (h : InStep (tokens cs)) :
    uncommented cs = (tokens cs).flatMap Token.visible := by
  simpa using (readsAll_tokens cs).uncommented_eq h

end RevenueDesk.Sql
