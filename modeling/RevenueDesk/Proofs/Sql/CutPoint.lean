/-
# Where a text can be cut

A place in a text is *outside* if it is inside no literal, no quoted identifier and no comment
(`Outside`).  If the guard is in step with the tokens, then at such a place it is not inside a
line comment either (`endsInside_eq_false_of_outside`).
-/
import RevenueDesk.Proofs.Sql.InStep

namespace RevenueDesk.Sql

/-- How far one has to go from the beginning of a token to be outside of it again; a line
comment goes on to the end of its line. -/
def Token.reach : Token → ℕ
  | literal inner | identifier inner => inner.length + 2
  | blockComment inner => inner.length + 4
  | lineComment inner => inner.length + 3
  | _ => 0

/-- The place behind the first `n` characters is inside no literal, quoted identifier and
comment. -/
def Outside : List Token → ℕ → Prop
  | [], _ => True
  | t :: ts, n => n = 0 ∨ (t.reach ≤ n ∧ Outside ts (n - t.text.length))

instance decidableOutside : (ts : List Token) → (n : ℕ) → Decidable (Outside ts n)
  | [], _ => .isTrue trivial
  | t :: ts, n =>
    have := decidableOutside ts (n - t.text.length)
    inferInstanceAs (Decidable (n = 0 ∨ (t.reach ≤ n ∧ Outside ts (n - t.text.length))))

/-! ## Going on with a text -/

/-- Behind two texts the guard is where the second one leaves it, unless two dashes meet. -/
lemma endsInside_append {inside : Bool} {xs ys : List Char}
    (hseam : endsInside inside xs = false → xs.getLast? = some '-' → ys.head? ≠ some '-') :
    endsInside inside (xs ++ ys) = endsInside (endsInside inside xs) ys := by
  induction xs generalizing inside with
  | nil => rfl
  | cons c cs ih =>
    have hrest : ∀ b, endsInside b cs = endsInside inside (c :: cs) →
        endsInside b (cs ++ ys) = endsInside (endsInside b cs) ys := by
      intro b hb
      refine ih fun hfalse hlast => hseam (hb ▸ hfalse) ?_
      have hne : cs ≠ [] := by
        rintro rfl
        simp at hlast
      rwa [List.getLast?_cons_of_ne_nil hne]
    rw [List.cons_append]
    cases inside with
    | true => exact hrest _ rfl
    | false =>
      cases cs with
      | nil =>
        have hstep : endsInside false [c] = false := by simp [endsInside]
        have hdash : (c == '-' && ys.head? == some '-') = false := by
          simpa using fun hc => hseam hstep (by rw [hc]; rfl)
        rw [hstep, List.nil_append, endsInside, hdash]
      | cons d ds => exact hrest _ rfl

lemma endsInside_of_no_dash {xs : List Char} (h : ∀ c ∈ xs, c ≠ '-') :
    endsInside false xs = false := by
  induction xs with
  | nil => rfl
  | cons c cs ih =>
    obtain ⟨hc, hcs⟩ := List.forall_mem_cons.mp h
    have hstep : (c == '-' && cs.head? == some '-') = false := by simp [hc]
    rw [endsInside, hstep, ih hcs]

/-- A new line ends a line comment. -/
lemma endsInside_append_newline (inside : Bool) (xs ys : List Char) :
    endsInside inside (xs ++ '\n' :: ys) = endsInside false ys := by
  rw [endsInside_append (by simp)]
  cases endsInside inside xs <;> rfl

/-! ## Going on behind a token -/

section Behind

variable {cs rest behind : List Char} {t : Token}

lemma endsInside_quoted {q : Char} (hq : q = '\'' ∨ q = '"') {inner : List Char}
    (hinner : endsInside false inner = false) (hbehind : endsInside false behind = false) :
    endsInside false (q :: (inner ++ q :: behind)) = false := by
  obtain ⟨hdash, -, -, -⟩ := quote_ne hq
  have hstep : ∀ ds, endsInside false (q :: ds) = endsInside false ds := by
    intro ds
    have hne : (q == '-' && ds.head? == some '-') = false := by simp [hdash]
    rw [endsInside, hne]
  rw [hstep, endsInside_append (by simp [hdash]), hinner, hstep, hbehind]

/-- Behind a token that the guard leaves as it enters it, it is outside of line comments as
long as nothing else begins one. -/
lemma Reads.endsInside_append (h : Reads cs t rest) (ht : t.Settled)
    (hbegin : behind <+: rest) (hreach : t.reach ≤ t.text.length + behind.length)
    (hbehind : endsInside false behind = false) : endsInside false (t.text ++ behind) = false := by
  have hhead : ∀ d, behind.head? = some d → rest.head? = some d := by
    obtain ⟨ds, rfl⟩ := hbegin
    intro d hd
    rw [List.head?_append, hd]
    rfl
  cases h with
  | @literal _ inner _ _ =>
    simpa [Token.text] using endsInside_quoted (Or.inl rfl) ht.1 hbehind
  | @identifier _ inner _ _ =>
    simpa [Token.text] using endsInside_quoted (Or.inr rfl) ht.1 hbehind
  | lineComment cs =>
    -- the comment is left with the line
    have hne : behind ≠ [] := by
      rintro rfl
      simp [Token.reach, Token.text] at hreach
    obtain ⟨d, ds, rfl⟩ := List.exists_cons_of_ne_nil hne
    obtain rfl : d = '\n' := Text.eq_of_head?_dropWhile_ne (hhead d rfl)
    rw [endsInside_append_newline]
    simpa [endsInside] using hbehind
  | @blockComment _ inner _ _ =>
    have htext : (Token.blockComment inner).text ++ behind =
        ['/', '*'] ++ (inner ++ (['*', '/'] ++ behind)) := by simp [Token.text]
    have hinner : endsInside false inner = false := ht
    rw [htext, Sql.endsInside_append (by simp), endsInside_of_no_dash (by decide),
      Sql.endsInside_append (by simp), hinner, Sql.endsInside_append (by simp),
      endsInside_of_no_dash (by decide), hbehind]
  | cast =>
    rw [Token.text, Sql.endsInside_append (by simp), endsInside_of_no_dash (by decide), hbehind]
  | @reference d cs hd =>
    have hname := (Reads.reference cs hd).isName.inert
    have hnodash : ∀ c ∈ (Token.reference (d :: cs.takeWhile isNameChar)).text, c ≠ '-' :=
      fun c hc => (hname c hc).ne_dash
    rw [Sql.endsInside_append fun _ hlast => absurd rfl (hnodash '-' (List.mem_of_getLast? hlast)),
      endsInside_of_no_dash hnodash, hbehind]
  | @plain c cs hquote hdash hslash hcolon =>
    have hstep : (c == '-' && behind.head? == some '-') = false := by
      simpa using fun hc hd => hdash hc (hhead '-' hd)
    rw [Token.text, List.singleton_append, endsInside, hstep, hbehind]

/-- A place inside a token of no marked kind is behind no dash of it. -/
lemma Reads.no_dash (h : Reads cs t rest) (hreach : t.reach < t.text.length)
    (u tail : List Char) (htext : t.text = u ++ tail) (htail : tail ≠ []) :
    ∀ c ∈ u, c ≠ '-' := by
  have hmem : ∀ c ∈ u, c ∈ t.text := fun c hc => htext ▸ List.mem_append_left tail hc
  cases h with
  | literal h => simp [Token.reach, Token.text] at hreach
  | identifier h => simp [Token.reach, Token.text] at hreach
  | lineComment cs =>
    simp only [Token.reach, Token.text, List.length_cons] at hreach
    omega
  | blockComment h => simp [Token.reach, Token.text] at hreach
  | cast =>
    intro c hc
    have hcolon : c = ':' := by simpa [Token.text] using hmem c hc
    rw [hcolon]
    decide
  | reference cs hd =>
    exact fun c hc => ((Reads.reference cs hd).isName.inert c (hmem c hc)).ne_dash
  | plain _ _ _ _ =>
    -- nothing stands before the end of a single character but its beginning
    have hlen := congrArg List.length htext
    have hpos := List.length_pos_iff.mpr htail
    rw [Token.text, List.length_singleton, List.length_append] at hlen
    have hnil : u = [] := List.length_eq_zero_iff.mp (by omega)
    simp [hnil]

end Behind

/-- At a place outside the guard is in no line comment, if it is in step with the tokens. -/
theorem endsInside_eq_false_of_outside (cs : List Char) :
    ∀ u v, cs = u ++ v → InStep (tokens cs) → Outside (tokens cs) u.length →
      endsInside false u = false := by
  refine reads_induction (P := fun cs => ∀ u v, cs = u ++ v → InStep (tokens cs) →
    Outside (tokens cs) u.length → endsInside false u = false) ?_ ?_ cs
  · intro u v htext _ _
    obtain ⟨rfl, -⟩ := List.nil_eq_append_iff.mp htext
    rfl
  · intro cs t rest h ih u v htext hstep hout
    rw [h.tokens_eq] at hstep hout
    obtain ⟨ht, hrest⟩ := List.forall_mem_cons.mp hstep
    rcases hout with hzero | ⟨hreach, hout⟩
    · rw [List.length_eq_zero_iff.mp hzero]
      rfl
    rw [← h.text_append] at htext
    rcases List.append_eq_append_iff.mp htext with ⟨behind, rfl, rfl⟩ | ⟨tail, htail, -⟩
    · rw [List.length_append] at hreach hout
      have hbehind := ih behind v rfl hrest (by simpa using hout)
      exact h.endsInside_append ht (List.prefix_append behind v) hreach hbehind
    · by_cases hnil : tail = []
      · obtain rfl : t.text = u := by simpa [hnil] using htail
        have hend := h.endsInside_append ht (List.nil_prefix) (by simpa using hreach) rfl
        rwa [List.append_nil] at hend
      · -- inside the token, which is then a cast or a reference
        have hlt : u.length < t.text.length := by
          have hpos := List.length_pos_iff.mpr hnil
          rw [htail, List.length_append]
          omega
        exact endsInside_of_no_dash fun c hc =>
          h.no_dash (Nat.lt_of_le_of_lt hreach hlt) u tail htail hnil c hc

end RevenueDesk.Sql
