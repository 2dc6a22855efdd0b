/-
# What makes no difference to the guard

The answer of the guard, wording included, does not depend on the case of ASCII letters, on the
semicolons and blanks at the end of a query that is not blank, on the blanks around it, nor, where
no line comment begins, on which blanks stand between two parts of it (`Insensitive`,
`insensitive`).  The text that is run is left alone when it is stripped again, and accepted
exactly if the query is.
-/
import RevenueDesk.Proofs.Sql.LetterCase
import RevenueDesk.Proofs.Sql.WordGrammar

namespace RevenueDesk.Sql

/-- What may stand for a blank: one or more of them. -/
structure BlankRun (run : List Char) : Prop where
  ne_nil : run ≠ []
  isBlank : ∀ c ∈ run, Text.isBlank c = true

/-- What makes no difference to the answer of the guard. -/
structure Insensitive (sql : List Char) : Prop where
  /-- The case of ASCII letters. -/
  recased : ∀ sql', sql'.map Char.toLower = sql.map Char.toLower → refusal? sql' = refusal? sql
  /-- Semicolons and blanks at the end; a semicolon behind nothing but blanks does make one. -/
  terminated_iff : ∀ run, (∀ c ∈ run, c = ';' ∨ Text.isBlank c = true) →
    (refusal? (sql ++ run) = refusal? sql ↔
      (∃ c ∈ sql, Text.isBlank c = false) ∨ ∀ c ∈ run, Text.isBlank c = true)
  /-- Blanks at either end. -/
  padded : ∀ before after, (∀ c ∈ before, Text.isBlank c = true) →
    (∀ c ∈ after, Text.isBlank c = true) → refusal? (before ++ (sql ++ after)) = refusal? sql
  /-- Which blanks stand in a place, if no line comment begins in the query. -/
  respaced : ¬ ['-', '-'] <:+: sql → ∀ u run run' v, sql = u ++ (run ++ v) →
    BlankRun run → BlankRun run' → refusal? (u ++ (run' ++ v)) = refusal? sql
  /-- The text that is run is stripped already. -/
  idempotent : stripTerminator (stripTerminator sql) = stripTerminator sql
  /-- It is accepted exactly if the query is. -/
  accepts_iff_executed : accepts sql = true ↔ accepts (stripTerminator sql) = true

/-! ## The ends of a query -/

section Ends

variable {sql : List Char}

/-- The answer is told by the text without what may stand at its end. -/
lemma refusal?_eq (sql : List Char) :
    refusal? sql =
      if sql.all Text.isBlank then some .empty else refusalOfNormal (normalize (stripEnd sql)) := by
  rw [refusal?, normalize_stripTerminator]

lemma stripEnd_append {run : List Char} (hrun : ∀ c ∈ run, c = ';' ∨ Text.isBlank c = true)
    (sql : List Char) : stripEnd (sql ++ run) = stripEnd sql := by
  have hnil : stripEnd run = [] :=
    Text.dropEndWhile_eq_nil_iff.mpr fun c hc => by simpa using hrun c hc
  rw [stripEnd, Text.dropEndWhile_append, ← stripEnd, if_pos hnil, stripEnd]

lemma refusal?_append_run (hsql : ∃ c ∈ sql, Text.isBlank c = false) {run : List Char}
    (hrun : ∀ c ∈ run, c = ';' ∨ Text.isBlank c = true) :
    refusal? (sql ++ run) = refusal? sql := by
  have hblank : sql.all Text.isBlank = false := by simpa using hsql
  rw [refusal?_eq, refusal?_eq, stripEnd_append hrun, List.all_append, hblank, Bool.false_and]

/-- A query of blanks is no query any more with a semicolon in it. -/
lemma refusal?_append_run_of_blank (hsql : ∀ c ∈ sql, Text.isBlank c = true) {run : List Char}
    (hrun : ∀ c ∈ run, c = ';' ∨ Text.isBlank c = true) :
    refusal? (sql ++ run) = refusal? sql ↔ ∀ c ∈ run, Text.isBlank c = true := by
  have hall : sql.all Text.isBlank = true := List.all_eq_true.mpr hsql
  have hnil : stripEnd sql = [] :=
    Text.dropEndWhile_eq_nil_iff.mpr fun c hc => by simp [hsql c hc]
  have hnone : refusalOfNormal (normalize []) = some .notRead := by
    rw [normalize_eq, uncommented_nil]
    decide
  rw [refusal?_eq, refusal?_eq, stripEnd_append hrun, hnil, hnone, List.all_append, hall,
    Bool.true_and, if_pos rfl, ← List.all_eq_true]
  split
  · rename_i hblank
    exact iff_of_true rfl hblank
  · rename_i hblank
    exact iff_of_false (by simp) hblank

lemma trim_padded {before after : List Char} (hbefore : ∀ c ∈ before, Text.isBlank c = true)
    (hafter : ∀ c ∈ after, Text.isBlank c = true) (sql : List Char) :
    Text.trim (before ++ (sql ++ after)) = Text.trim sql := by
  have h := Text.trims_trim sql
  obtain ⟨front, back, hsql, hfront, hback⟩ := h.around
  refine Text.trims_iff.mp ⟨⟨before ++ front, back ++ after, ?_, ?_, ?_⟩, h.head_ok, h.last_ok⟩
  · conv_lhs => rw [hsql]
    simp only [List.append_assoc]
  · exact List.forall_mem_append.mpr ⟨hbefore, hfront⟩
  · exact List.forall_mem_append.mpr ⟨hback, hafter⟩

lemma refusal?_padded {before after : List Char} (hbefore : ∀ c ∈ before, Text.isBlank c = true)
    (hafter : ∀ c ∈ after, Text.isBlank c = true) (sql : List Char) :
    refusal? (before ++ (sql ++ after)) = refusal? sql := by
  have hall : (before ++ (sql ++ after)).all Text.isBlank = sql.all Text.isBlank := by
    rw [List.all_append, List.all_append, List.all_eq_true.mpr hbefore,
      List.all_eq_true.mpr hafter, Bool.true_and, Bool.and_true]
  rw [refusal?, refusal?, hall, stripTerminator, trim_padded hbefore hafter, ← stripTerminator]

lemma accepts_iff_accepts_stripTerminator :
    accepts sql = true ↔ accepts (stripTerminator sql) = true := by
  have hstripped := stripped_stripTerminator sql
  rw [accepts_iff_clean, accepts_iff_clean, ← normalize_stripTerminator,
    ← normalize_stripTerminator, hstripped.stripTerminator_eq]

end Ends

/-! ## Blanks inside -/

section Inside

variable {run u v : List Char}

lemma BlankRun.ne_of_mem (h : BlankRun run) {c d : Char} (hc : c ∈ run)
    (hd : Text.isBlank d = false) : c ≠ d := by
  rintro rfl
  simpa [hd] using h.isBlank c hc

/-- Two dashes stand on one side of a character that is no dash. -/
lemma dashes_append_cons {c : Char} (hc : c ≠ '-') (xs ys : List Char) :
    ['-', '-'] <:+: xs ++ c :: ys ↔ ['-', '-'] <:+: xs ∨ ['-', '-'] <:+: ys := by
  induction xs with
  | nil =>
    rw [List.nil_append, List.infix_cons_iff, List.cons_prefix_cons]
    simp [Ne.symm hc]
  | cons d ds ih =>
    have hhead : ['-'] <+: ds ++ c :: ys ↔ ['-'] <+: ds := by
      cases ds with
      | nil => simp [List.cons_prefix_cons, Ne.symm hc]
      | cons e es => simp [List.cons_prefix_cons]
    rw [List.cons_append, List.infix_cons_iff, List.infix_cons_iff, List.cons_prefix_cons,
      List.cons_prefix_cons, hhead, ih, or_assoc]

lemma dashes_append_of_no_dash {xs : List Char} (h : ∀ c ∈ xs, c ≠ '-') (ys : List Char) :
    ['-', '-'] <:+: xs ++ ys ↔ ['-', '-'] <:+: ys := by
  induction xs with
  | nil => rfl
  | cons c cs ih =>
    obtain ⟨hc, hcs⟩ := List.forall_mem_cons.mp h
    have hcons := dashes_append_cons hc [] (cs ++ ys)
    rw [List.nil_append, or_iff_right (by decide)] at hcons
    rw [List.cons_append, hcons, ih hcs]

namespace BlankRun

lemma head?_ne (h : BlankRun run) {d : Char} (hd : Text.isBlank d = false) (v : List Char) :
    (run ++ v).head? ≠ some d := by
  obtain ⟨c, cs, rfl⟩ := List.exists_cons_of_ne_nil h.ne_nil
  exact fun hhead => h.ne_of_mem List.mem_cons_self hd (Option.some.inj hhead)

lemma dashes_append (h : BlankRun run) (u v : List Char) :
    ['-', '-'] <:+: u ++ (run ++ v) ↔ ['-', '-'] <:+: u ∨ ['-', '-'] <:+: v := by
  have hdash : ∀ c ∈ run, c ≠ '-' := fun c hc => h.ne_of_mem hc (by decide)
  obtain ⟨c, cs, rfl⟩ := List.exists_cons_of_ne_nil h.ne_nil
  obtain ⟨hc, hcs⟩ := List.forall_mem_cons.mp hdash
  rw [List.cons_append, dashes_append_cons hc, dashes_append_of_no_dash hcs]

lemma pieces_append (h : BlankRun run) (u v : List Char) :
    Text.pieces (u ++ (run ++ v)) = Text.pieces u ++ Text.pieces v := by
  have hlast : ∀ c, (u ++ run).getLast? = some c → Text.isBlank c = true := by
    intro c hc
    rw [List.getLast?_append_of_ne_nil _ h.ne_nil] at hc
    exact h.isBlank c (List.mem_of_getLast? hc)
  rw [← List.append_assoc, Text.pieces, Text.runs_append (.inl hlast), ← Text.pieces,
    pieces_append_of_blank h.isBlank, ← Text.pieces]

/-- Blanks close no comment, and keep none from being closed. -/
lemma closeComment?_append (h : BlankRun run) {u : List Char} (hu : closeComment? u = none)
    (v : List Char) : closeComment? (u ++ (run ++ v)) =
      (closeComment? v).map fun found => (u ++ (run ++ found.1), found.2) := by
  have hstar : ∀ c ∈ run, c ≠ '*' := fun c hc => h.ne_of_mem hc (by decide)
  obtain ⟨d, ds, rfl⟩ := List.exists_cons_of_ne_nil h.ne_nil
  have hslash : d ≠ '/' := h.ne_of_mem List.mem_cons_self (by decide)
  obtain ⟨hd, hds⟩ := List.forall_mem_cons.mp hstar
  rw [List.cons_append, closeComment?_append_of_none hslash hd hu,
    closeComment?_append_of_no_star hds, Option.map_map]
  rfl

end BlankRun

/-- Whether a comment is open in front of the blanks or not, the pieces that are left do not
depend on them. -/
lemma exists_pieces_of_blankRun (u v : List Char) :
    ∃ ps, ∀ run, BlankRun run → Text.pieces (dropBlockComments (u ++ (run ++ v))) = ps := by
  cases hopen : leftOpen u with
  | false =>
    refine ⟨Text.pieces (dropBlockComments u) ++ Text.pieces (dropBlockComments v),
      fun run hrun => ?_⟩
    rw [dropBlockComments_append hopen fun _ => hrun.head?_ne (by decide) v,
      dropBlockComments_append_of_no_slash fun c hc => hrun.ne_of_mem hc (by decide),
      hrun.pieces_append]
  | true =>
    obtain ⟨before, inside, hinside, hrest⟩ := dropBlockComments_append_of_leftOpen hopen
    cases hv : closeComment? v with
    | none =>
      refine ⟨Text.pieces (before ++ '/' :: '*' :: inside) ++ Text.pieces v, fun run hrun => ?_⟩
      have hnone : closeComment? (inside ++ (run ++ v)) = none := by
        rw [hrun.closeComment?_append hinside, hv, Option.map_none]
      rw [hrest, dropBlockComments_of_open hnone, ← hrun.pieces_append]
      simp
    | some found =>
      refine ⟨Text.pieces (before ++ dropBlockComments found.2), fun run hrun => ?_⟩
      have hsome : closeComment? (inside ++ (run ++ v)) =
          some (inside ++ (run ++ found.1), found.2) := by
        rw [hrun.closeComment?_append hinside, hv, Option.map_some]
      rw [hrest, dropBlockComments_of_closed hsome]

/-- Nor does the normal form of the query. -/
lemma exists_normalize_of_blankRun (hu : ¬ ['-', '-'] <:+: u) (hv : ¬ ['-', '-'] <:+: v) :
    ∃ text, ∀ run, BlankRun run → normalize (stripEnd (u ++ (run ++ v))) = text := by
  by_cases hnil : stripEnd v = []
  · refine ⟨normalize (stripEnd u), fun run hrun => ?_⟩
    have hv' : ∀ c ∈ v, c = ';' ∨ Text.isBlank c = true := by
      simpa using Text.dropEndWhile_eq_nil_iff.mp hnil
    rw [stripEnd_append]
    exact List.forall_mem_append.mpr ⟨fun c hc => .inr (hrun.isBlank c hc), hv'⟩
  · obtain ⟨ps, hps⟩ := exists_pieces_of_blankRun u (stripEnd v)
    refine ⟨Text.spaced ps, fun run hrun => ?_⟩
    have hfront : stripEnd (u ++ (run ++ v)) = u ++ (run ++ stripEnd v) := by
      rw [← List.append_assoc, stripEnd, Text.dropEndWhile_append, ← stripEnd, if_neg hnil,
        List.append_assoc]
    have hinfix : stripEnd v <:+: v := by
      obtain ⟨t, ht, -⟩ := exists_stripEnd_append v
      exact ⟨[], t, ht.symm⟩
    have hdashes : ¬ ['-', '-'] <:+: u ++ (run ++ stripEnd v) := by
      rw [hrun.dashes_append, not_or]
      exact ⟨hu, fun h => hv (h.trans hinfix)⟩
    rw [hfront, normalize, dropLineComments_eq_self hdashes, hps run hrun]

lemma refusal?_respaced {run' : List Char} (hrun : BlankRun run) (hrun' : BlankRun run')
    (h : ¬ ['-', '-'] <:+: u ++ (run ++ v)) :
    refusal? (u ++ (run' ++ v)) = refusal? (u ++ (run ++ v)) := by
  rw [hrun.dashes_append, not_or] at h
  obtain ⟨text, htext⟩ := exists_normalize_of_blankRun h.1 h.2
  have hall : ∀ run, BlankRun run →
      (u ++ (run ++ v)).all Text.isBlank = (u.all Text.isBlank && v.all Text.isBlank) := by
    intro run hrun
    rw [List.all_append, List.all_append, List.all_eq_true.mpr hrun.isBlank, Bool.true_and]
  rw [refusal?_eq, refusal?_eq, hall run hrun, hall run' hrun', htext run hrun, htext run' hrun']

end Inside

/-- The guard is insensitive to all this, whatever the query is. -/
theorem insensitive (sql : List Char) : Insensitive sql where
  recased _ := refusal?_eq_of_toLower_eq
  terminated_iff run hrun := by
    by_cases hsql : ∃ c ∈ sql, Text.isBlank c = false
    · exact iff_of_true (refusal?_append_run hsql hrun) (.inl hsql)
    · have hblank : ∀ c ∈ sql, Text.isBlank c = true := by simpa using hsql
      rw [or_iff_right hsql, refusal?_append_run_of_blank hblank hrun]
  padded _ _ hbefore hafter := refusal?_padded hbefore hafter sql
  respaced := by
    rintro hdashes u run run' v rfl hrun hrun'
    exact refusal?_respaced hrun hrun' hdashes
  idempotent := (stripped_stripTerminator sql).stripTerminator_eq
  accepts_iff_executed := accepts_iff_accepts_stripTerminator

end RevenueDesk.Sql
