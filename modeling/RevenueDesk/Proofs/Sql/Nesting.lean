/-
# Staying inside the wrapper

The query stands inside a pair of parentheses that the wrapper writes.  It stays there if
what is exposed of it closes no parenthesis that it has not opened and leaves none open:
if it is *contained*.  The guard compares two totals only.

* `contained_iff_untilClosed?`: a query is contained exactly if the parenthesis in front of it
  is closed by the one that the wrapper writes behind it;
* `containment_of_accepts`: what the guard knows of this, and a text that leads out of the
  wrapper behind any query that is accepted.
-/
import RevenueDesk.Proofs.Sql.Neutral
import RevenueDesk.Proofs.Sql.Exposure
import RevenueDesk.Proofs.Sql.Wrapping

namespace RevenueDesk.Sql

/-! ## Parentheses in a text -/

/-- No beginning of the text has more closing than opening parentheses. -/
def NeverCloses (text : List Char) : Prop := ∀ p, p <+: text → p.count ')' ≤ p.count '('

/-- The text closes just the parentheses that it opens. -/
def Contained (text : List Char) : Prop :=
  NeverCloses text ∧ text.count '(' = text.count ')'

/-- How many parentheses are open behind a character, if `depth` are in front of it. -/
def nested (depth : Nat) (c : Char) : Nat :=
  if c = '(' then depth + 1 else if c = ')' then depth - 1 else depth

/-- How many parentheses are open behind a text, if `depth` are in front of it and it never
closes more. -/
def depthAfter : Nat → List Char → Option Nat
  | depth, [] => some depth
  | depth, c :: cs => if c = ')' ∧ depth = 0 then none else depthAfter (nested depth c) cs

/-- What stands before the parenthesis that closes one which is open in front of the text,
and what stands behind; `depth` more are open. -/
def untilClosed? : Nat → List Char → Option (List Char × List Char)
  | _, [] => none
  | depth, c :: cs =>
    if c = ')' ∧ depth = 0 then some ([], cs)
    else (untilClosed? (nested depth c) cs).map fun (inside, rest) => (c :: inside, rest)

variable {xs ys : List Char} {depth depth' : Nat}

lemma forall_prefix_cons {P : List Char → Prop} {c : Char} :
    (∀ p, p <+: c :: xs → P p) ↔ P [] ∧ ∀ p, p <+: xs → P (c :: p) := by
  constructor
  · intro h
    exact ⟨h [] List.nil_prefix, fun p hp => h (c :: p) (List.cons_prefix_cons.mpr ⟨rfl, hp⟩)⟩
  · rintro ⟨hnil, hcons⟩ p hp
    cases p with
    | nil => exact hnil
    | cons d p =>
      obtain ⟨rfl, hp'⟩ := List.cons_prefix_cons.mp hp
      exact hcons p hp'

/-- A character changes the depth and the counts alike. -/
lemma count_nested {c : Char} (h : ¬ (c = ')' ∧ depth = 0)) (p : List Char) :
    nested depth c + p.count '(' + (c :: p).count ')' =
      depth + (c :: p).count '(' + p.count ')' := by
  unfold nested
  by_cases hopen : c = '('
  · subst hopen
    simp only [List.count_cons, beq_iff_eq, Char.reduceEq, if_true, if_false]
    omega
  · by_cases hclose : c = ')'
    · subst hclose
      have hdepth : depth ≠ 0 := fun hzero => h ⟨rfl, hzero⟩
      simp only [List.count_cons, beq_iff_eq, Char.reduceEq, if_true, if_false]
      omega
    · rw [if_neg hopen, if_neg hclose, List.count_cons_of_ne hopen, List.count_cons_of_ne hclose]

/-- The depth is the number of parentheses that are open, if none is closed too much. -/
lemma depthAfter_eq_some_iff :
    depthAfter depth xs = some depth' ↔
      (∀ p, p <+: xs → p.count ')' ≤ depth + p.count '(') ∧
        depth + xs.count '(' = depth' + xs.count ')' := by
  induction xs generalizing depth with
  | nil => simp [depthAfter]
  | cons c cs ih =>
    rw [forall_prefix_cons, depthAfter]
    by_cases hhere : c = ')' ∧ depth = 0
    · -- this parenthesis is one too much
      obtain ⟨rfl, rfl⟩ := hhere
      simp only [and_self, if_true, reduceCtorEq, false_iff]
      rintro ⟨⟨-, hbegin⟩, -⟩
      exact absurd (hbegin [] List.nil_prefix) (by decide)
    · rw [if_neg hhere, ih]
      refine and_congr ⟨fun h => ⟨by simp, fun p hp => ?_⟩, fun h p hp => ?_⟩ ?_
      · have hle := h p hp
        have hcount := count_nested hhere p
        omega
      · have hle := h.2 p hp
        have hcount := count_nested hhere p
        omega
      · have hcount := count_nested hhere cs
        omega

lemma contained_iff_depthAfter : Contained xs ↔ depthAfter 0 xs = some 0 := by
  rw [depthAfter_eq_some_iff]
  simp [Contained, NeverCloses]

instance : DecidablePred Contained := fun _ => decidable_of_iff _ contained_iff_depthAfter.symm

/-- Behind a text that closes nothing too much, the parenthesis is closed later. -/
lemma untilClosed?_append (h : depthAfter depth xs = some depth') (ys : List Char) :
    untilClosed? depth (xs ++ ys) =
      (untilClosed? depth' ys).map fun (inside, rest) => (xs ++ inside, rest) := by
  induction xs generalizing depth with
  | nil =>
    obtain rfl : depth = depth' := by simpa [depthAfter] using h
    simp
  | cons c cs ih =>
    rw [depthAfter] at h
    split at h
    · simp at h
    · rename_i hhere
      rw [List.cons_append, untilClosed?, if_neg hhere, ih h, Option.map_map]
      rfl

/-- In a text that closes too much, the parenthesis is closed. -/
lemma untilClosed?_of_depthAfter_eq_none (h : depthAfter depth xs = none) (ys : List Char) :
    ∃ inside rest, untilClosed? depth (xs ++ ys) = some (inside, rest) ∧
      inside.length < xs.length := by
  induction xs generalizing depth with
  | nil => simp [depthAfter] at h
  | cons c cs ih =>
    rw [depthAfter] at h
    rw [List.cons_append, untilClosed?]
    split at h
    · rename_i hhere
      exact ⟨[], cs ++ ys, if_pos hhere, by simp⟩
    · rename_i hhere
      obtain ⟨inside, rest, hclosed, hlen⟩ := ih h
      refine ⟨c :: inside, rest, ?_, by simpa using hlen⟩
      rw [if_neg hhere, hclosed]
      rfl

/-- A text between an open parenthesis and a closing one on a line of its own is contained
exactly if the one closes the other. -/
theorem contained_iff_untilClosed? :
    Contained xs ↔
      untilClosed? 0 ('\n' :: (xs ++ '\n' :: ')' :: ys)) = some ('\n' :: (xs ++ ['\n']), ys) := by
  rw [contained_iff_depthAfter]
  have hline : ∀ depth ds, untilClosed? depth ('\n' :: ds) =
      (untilClosed? depth ds).map fun (inside, rest) => ('\n' :: inside, rest) := by
    intro depth ds
    simp [untilClosed?, nested]
  rw [hline]
  constructor
  · intro h
    rw [untilClosed?_append h, hline]
    simp [untilClosed?]
  · intro h
    obtain ⟨⟨inside, rest⟩, hclosed, hpair⟩ := Option.map_eq_some_iff.mp h
    obtain ⟨rfl, rfl⟩ : inside = xs ++ ['\n'] ∧ rest = ys := by simpa using hpair
    rcases hdepth : depthAfter 0 xs with _ | depth
    · -- the parenthesis is closed inside already
      obtain ⟨inside', rest', hclosed', hlen⟩ := untilClosed?_of_depthAfter_eq_none hdepth
        ('\n' :: ')' :: rest)
      obtain ⟨rfl, -⟩ : xs ++ ['\n'] = inside' ∧ rest = rest' := by
        simpa using hclosed.symm.trans hclosed'
      simp only [List.length_append, List.length_singleton] at hlen
      omega
    · by_cases hzero : depth = 0
      · rw [hzero]
      · -- the closing parenthesis closes another one
        rw [untilClosed?_append hdepth, hline] at hclosed
        simp [untilClosed?, hzero] at hclosed

/-! ## The wrapped query -/

/-- What is exposed of the wrapper in front of the query. -/
def exposedOpening : List Char := "SELECT COALESCE(json_agg(q),  ::json) FROM (".toList

lemma exposed_opening (ys : List Char) :
    exposed (tokens (opening ++ '\n' :: ys)) = exposedOpening ++ '\n' :: exposed (tokens ys) := by
  have hfront : ∀ c ∈ "SELECT COALESCE(json_agg(q), ".toList, c ∉ tokenStarts := by decide
  have hback : ∀ c ∈ "json) FROM (\n".toList, c ∉ tokenStarts := by decide
  have htext : opening ++ '\n' :: ys = "SELECT COALESCE(json_agg(q), ".toList ++
      '\'' :: '[' :: ']' :: '\'' :: ':' :: ':' :: ("json) FROM (\n".toList ++ ys) := by
    have hopening : opening ++ ['\n'] = "SELECT COALESCE(json_agg(q), ".toList ++
        '\'' :: '[' :: ']' :: '\'' :: ':' :: ':' :: "json) FROM (\n".toList := by decide
    rw [List.append_cons, hopening]
    simp only [List.append_assoc, List.cons_append]
  have hliteral : ∀ ds, Reads ('\'' :: '[' :: ']' :: '\'' :: ':' :: ds) (.literal ['[', ']'])
      (':' :: ds) := by
    intro ds
    exact .literal (by simp [closeQuote?_cons])
  have hexposed : exposedOpening ++ ['\n'] = "SELECT COALESCE(json_agg(q), ".toList ++
      ' ' :: ':' :: ':' :: "json) FROM (\n".toList := by decide
  rw [htext, exposed_tokens_append hfront, (hliteral _).tokens_eq, (Reads.cast _).tokens_eq,
    List.append_cons, hexposed]
  have hbehind := exposed_tokens_append hback ys
  rw [exposed] at hbehind
  simp only [exposed, List.flatMap_cons, Token.exposed, Token.text, hbehind, List.append_assoc,
    List.cons_append, List.nil_append]

/-- A line of single characters that close nothing is exposed behind any text. -/
lemma exposed_append_line (cs : List Char) {line : List Char} (hneutral : Neutral ('\n' :: line))
    (hplain : ∀ c ∈ '\n' :: line, c ∉ tokenStarts) :
    exposed (tokens (cs ++ '\n' :: line)) = exposed (tokens cs) ++ '\n' :: line := by
  have hline : exposed (tokens ('\n' :: line)) = '\n' :: line := by
    simpa [exposed] using exposed_tokens_append hplain []
  rw [tokens_append_newline cs hneutral rfl]
  rw [exposed] at hline
  rw [exposed, exposed, List.flatMap_append, hline]

/-- What is exposed of a wrapped query. -/
theorem exposed_wrapped (sql : String) :
    exposed (tokens (wrapped sql).toList) =
      exposedOpening ++ '\n' :: (exposed (tokens sql.toList) ++ '\n' :: closing) := by
  have hneutral : Neutral ('\n' :: closing) := ⟨by simp, by decide, by decide, by decide⟩
  rw [toList_wrapped, exposed_opening, exposed_append_line _ hneutral (by decide)]

/-! ## What the guard counts -/

/-- What the guard sees inside the quotes of a token. -/
def Token.quoted : Token → List Char
  | literal inner | identifier inner => uncommented inner
  | _ => []

/-- What the guard sees inside the quotes of a row of tokens. -/
def quoted (ts : List Token) : List Char := ts.flatMap Token.quoted

/-- What the guard sees of a token is exposed or stands inside quotes, the quotes and the
spaces apart. -/
lemma Token.count_visible (t : Token) {c : Char} (hc : c ∉ [' ', '\'', '"']) :
    t.visible.count c = t.exposed.count c + t.quoted.count c := by
  simp only [List.mem_cons, List.not_mem_nil, or_false, not_or] at hc
  obtain ⟨hspace, hsingle, hdouble⟩ := hc
  cases t <;>
    simp [Token.visible, Token.exposed, Token.quoted, Ne.symm hspace, Ne.symm hsingle,
      Ne.symm hdouble]

lemma count_visible (ts : List Token) {c : Char} (hc : c ∉ [' ', '\'', '"']) :
    (ts.flatMap Token.visible).count c = (exposed ts).count c + (quoted ts).count c := by
  induction ts with
  | nil => rfl
  | cons t ts ih =>
    rw [exposed] at ih ⊢
    rw [quoted] at ih ⊢
    simp only [List.flatMap_cons, List.count_append, ih, t.count_visible hc]
    omega

/-- The totals that the guard compares are those of the exposed text if the parentheses
inside quotes are as many of the one kind as of the other, and only then. -/
lemma exposed_totals_iff {cs : List Char} (h : Clean (normalize cs)) (hstep : InStep (tokens cs)) :
    (exposed (tokens cs)).count '(' = (exposed (tokens cs)).count ')' ↔
      (quoted (tokens cs)).count '(' = (quoted (tokens cs)).count ')' := by
  have hopen := count_visible (tokens cs) (c := '(') (by decide)
  have hclose := count_visible (tokens cs) (c := ')') (by decide)
  have hbalanced := h.balanced_uncommented
  rw [uncommented_of_inStep hstep] at hbalanced
  omega

/-! ## A way out -/

/-- A text that closes the parenthesis in front of a query and opens another one. -/
def wayOut : List Char := ") AS a, (SELECT 1".toList

lemma exposed_wayOut (cs : List Char) :
    exposed (tokens (cs ++ '\n' :: wayOut)) = exposed (tokens cs) ++ '\n' :: wayOut := by
  have hneutral : Neutral ('\n' :: wayOut) := ⟨by simp, by decide, by decide, by decide⟩
  exact exposed_append_line cs hneutral (by decide)

/-- Behind any text it leads out. -/
lemma not_contained_wayOut (cs : List Char) :
    ¬ Contained (exposed (tokens (cs ++ '\n' :: wayOut))) := by
  rw [exposed_wayOut]
  rintro ⟨hnever, htotal⟩
  obtain ⟨rest, hrest⟩ : ∃ rest, wayOut = ')' :: rest := ⟨" AS a, (SELECT 1".toList, by decide⟩
  have hclosed := hnever (exposed (tokens cs) ++ ['\n', ')']) ⟨rest, by simp [hrest]⟩
  have hopen : ('\n' :: wayOut).count '(' = 1 := by decide
  have hclose : ('\n' :: wayOut).count ')' = 1 := by decide
  simp only [List.count_append, hopen, hclose] at htotal
  simp only [List.count_append, List.count_cons, List.count_nil, beq_iff_eq, Char.reduceEq,
    if_true, if_false] at hclosed
  omega

lemma isReadStatement_append (h : isReadStatement xs = true) (ys : List Char) :
    isReadStatement (xs ++ ys) = true := by
  have hbegins : ∀ word : String, beginsWith word xs = true →
      beginsWith word (xs ++ ys) = true := by
    intro word hword
    obtain ⟨r, hr⟩ := Option.isSome_iff_exists.mp hword
    obtain ⟨s, hs, hblanks⟩ := Option.bind_eq_some_iff.mp hr
    obtain ⟨used, rfl, hused⟩ := Text.dropWord?_eq_some_iff.mp hs
    have hlonger : Text.dropWord? word.toList (used ++ s ++ ys) = some (s ++ ys) :=
      Text.dropWord?_eq_some_iff.mpr ⟨used, by simp, hused⟩
    cases s with
    | nil => simp [dropBlanks?] at hblanks
    | cons c s =>
      have hblank : Text.isBlank c = true := by
        by_contra hc
        simp [dropBlanks?, hc] at hblanks
      rw [beginsWith, hlonger]
      simp [dropBlanks?, hblank]
  unfold isReadStatement at h ⊢
  rw [Bool.or_eq_true] at h ⊢
  exact h.imp (hbegins "select") (hbegins "with")

/-- A clean text stays clean with the way out behind it. -/
lemma Clean.wayOut {text : List Char} (h : Clean text) : Clean (text ++ ' ' :: Sql.wayOut) where
  harmless := by
    have hwords : ∀ w ∈ Text.words Sql.wayOut, ¬ Dangerous w := by decide
    exact harmless_append_space h.harmless hwords
  reads := isReadStatement_append h.reads _
  balanced := by
    have htotal : (' ' :: Sql.wayOut).count '(' = (' ' :: Sql.wayOut).count ')' := by decide
    rw [List.count_append, List.count_append, h.balanced, htotal]
  single := by
    have hsingle : ';' ∉ ' ' :: Sql.wayOut := by decide
    rw [List.mem_append, not_or]
    exact ⟨h.single, hsingle⟩
  closed := by
    have hslash : ∀ c ∈ Sql.wayOut, c ≠ '/' := by decide
    rw [hasOpener_append_cons (by decide) (by decide)]
    simp [h.closed, not_hasOpener_of_no_slash hslash]
  no_union := by
    have htext : Sql.wayOut = ')' :: " AS a, (SELECT 1".toList := by decide
    rw [← Bool.not_eq_true, htext]
    intro hunion
    simpa [h.no_union] using anyEnd_unionSelectHere_append_paren (by decide) hunion

/-! ## Queries that are accepted -/

/-- What is known of the nesting of a query that is accepted. -/
structure Containment (cs : List Char) : Prop where
  /-- It is contained exactly if the parenthesis of the wrapper in front of it is closed by the
  one of the wrapper behind it. -/
  contained_iff_closed : Contained (exposed (tokens cs)) ↔
    ∃ behind, exposed (tokens (wrapped (String.ofList cs)).toList) = exposedOpening ++ behind ∧
      untilClosed? 0 behind = some ('\n' :: (exposed (tokens cs) ++ ['\n']), " AS q".toList)
  /-- If the guard is in step, two things are missing: that no parenthesis is closed too much,
  and that those inside quotes do not make up for others. -/
  contained_iff_of_inStep : InStep (tokens cs) →
    (Contained (exposed (tokens cs)) ↔ NeverCloses (exposed (tokens cs)) ∧
      (quoted (tokens cs)).count '(' = (quoted (tokens cs)).count ')')
  /-- With the way out on a line behind it, it is still accepted and leaves the wrapper. -/
  accepts_wayOut : accepts (cs ++ '\n' :: wayOut) = true ∧
    ¬ Contained (exposed (tokens (stripTerminator (cs ++ '\n' :: wayOut))))

/-- A query that is accepted need not be contained; it is if no parenthesis in it is closed
too much and the guard has counted the right ones. -/
theorem containment_of_accepts {sql : List Char} (h : accepts sql = true) :
    Containment (stripTerminator sql) where
  contained_iff_closed := by
    have hclosing : closing = ')' :: " AS q".toList := by decide
    rw [exposed_wrapped, String.toList_ofList, hclosing]
    constructor
    · intro hcontained
      exact ⟨_, rfl, contained_iff_untilClosed?.mp hcontained⟩
    · rintro ⟨behind, htext, hclosed⟩
      rw [← List.append_cancel_left htext] at hclosed
      exact contained_iff_untilClosed?.mpr hclosed
  contained_iff_of_inStep := by
    intro hstep
    rw [Contained, exposed_totals_iff (clean_of_accepts h) hstep]
  accepts_wayOut := by
    have hclean := clean_of_accepts h
    have hnormal : normalize (stripTerminator sql ++ '\n' :: wayOut) =
        normalize (stripTerminator sql) ++ ' ' :: wayOut :=
      hclean.normalize_append_newline (by decide) (by decide) (by decide)
    have hstripped : Stripped (stripTerminator sql ++ '\n' :: wayOut) := by
      have hsame : Stripped (stripTerminator sql ++ []) := by
        rw [List.append_nil]
        exact stripped_stripTerminator sql
      refine hsame.append hclean.ne_nil (by simp) fun c hc => ?_
      have hone : wayOut.getLast? = some '1' := by rfl
      rw [List.getLast?_cons, hone] at hc
      obtain rfl : '1' = c := by simpa using hc
      decide
    rw [hstripped.stripTerminator_eq]
    exact ⟨hstripped.accepts (hnormal ▸ hclean.wayOut), not_contained_wayOut _⟩

/-- A query whose totals agree while it leaves the wrapper. -/
def leavingQuery : String := "SELECT 1) AS a, (SELECT 2"

theorem containment_of_accepts_leavingQuery :
    accepts leavingQuery.toList = true ∧ Containment (stripTerminator leavingQuery.toList) := by
  have haccepts : accepts leavingQuery.toList = true := by decide +kernel
  exact ⟨haccepts, containment_of_accepts haccepts⟩

/-- Closing too much, counting inside quotes and being out of step each let a query leave. -/
theorem accepted_not_contained :
    (accepts leavingQuery.toList = true ∧
      ¬ Contained (exposed (tokens (stripTerminator leavingQuery.toList)))) ∧
    ∀ sql ∈ ["SELECT '(', 1)", "SELECT '--')"], accepts sql.toList = true ∧
      ¬ Contained (exposed (tokens (stripTerminator sql.toList))) := by
  decide +kernel

end RevenueDesk.Sql
