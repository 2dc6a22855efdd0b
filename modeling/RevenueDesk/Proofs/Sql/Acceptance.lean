/-
# What the guard accepts

The guard accepts a query if something is written in it and if its normal form is *clean*:
no dangerous word, a beginning that reads, as many closing as opening parentheses, no
semicolon, no open comment and no `UNION SELECT` (`accepts_iff`).
-/
import Mathlib.Data.List.Basic
import RevenueDesk.Proofs.Sql.Comments
import RevenueDesk.Proofs.Text.Parts
import RevenueDesk.Proofs.Text.Trimming

namespace RevenueDesk.Sql

/-- A word that no query may contain, in any case. -/
def Dangerous (w : List Char) : Prop := ∃ d ∈ dangerousWords, Text.sameWord d w = true

instance (w : List Char) : Decidable (Dangerous w) :=
  inferInstanceAs (Decidable (∃ d ∈ dangerousWords, Text.sameWord d w = true))

/-- A text in normal form in which the guard finds nothing. -/
structure Clean (text : List Char) : Prop where
  harmless : ∀ w ∈ Text.words text, ¬ Dangerous w
  reads : isReadStatement text = true
  balanced : text.count '(' = text.count ')'
  single : ';' ∉ text
  closed : ¬ HasOpener text
  no_union : anyEnd unionSelectHere text = false

lemma commentHere_iff {cs : List Char} : commentHere cs = true ↔ ∃ ds, cs = '/' :: '*' :: ds := by
  simp [commentHere, Option.isSome_iff_exists, Text.dropStart?_eq_some_iff]

lemma anyEnd_commentHere_iff {cs : List Char} : anyEnd commentHere cs = true ↔ HasOpener cs := by
  induction cs with
  | nil =>
    have hnil : commentHere [] = false := by rfl
    simp [anyEnd, hnil, not_hasOpener_nil]
  | cons c cs ih =>
    rw [hasOpener_cons, anyEnd, Bool.or_eq_true, ih, commentHere_iff]
    simp [List.head?_eq_some_iff]

lemma dangerousWord?_eq_none_iff {text : List Char} :
    dangerousWord? text = none ↔ ∀ w ∈ Text.words text, ¬ Dangerous w := by
  simp [dangerousWord?, Dangerous]

/-- Nothing is found in a text exactly if it is clean. -/
lemma refusalOfNormal_eq_none_iff {text : List Char} :
    refusalOfNormal text = none ↔ Clean text := by
  constructor
  · intro h
    unfold refusalOfNormal at h
    split at h
    · simp at h
    · rename_i hwords
      split_ifs at h with hreads hbalanced hsingle hsuspicious
      rw [Bool.or_eq_true, not_or, anyEnd_commentHere_iff] at hsuspicious
      refine ⟨dangerousWord?_eq_none_iff.mp hwords, by simpa using hreads, by simpa using hbalanced,
        by simpa using hsingle, hsuspicious.1, by simpa using hsuspicious.2⟩
  · rintro ⟨hwords, hreads, hbalanced, hsingle, hclosed, hunion⟩
    have hopener : anyEnd commentHere text = false := by
      rw [← Bool.not_eq_true, anyEnd_commentHere_iff]
      exact hclosed
    simp [refusalOfNormal, dangerousWord?_eq_none_iff.mpr hwords, hreads, hbalanced, hsingle,
      hopener, hunion]

/-- The guard accepts a query exactly if it is not blank and its normal form is clean. -/
theorem accepts_iff {sql : List Char} :
    accepts sql = true ↔
      (∃ c ∈ sql, Text.isBlank c = false) ∧ Clean (normalize (stripTerminator sql)) := by
  unfold accepts refusal?
  split
  · rename_i hblank
    simp only [List.all_eq_true] at hblank
    simp only [Option.isNone_some, Bool.false_eq_true, false_iff, not_and]
    rintro ⟨c, hc, hcb⟩
    simp [hblank c hc] at hcb
  · rename_i hblank
    rw [Option.isNone_iff_eq_none, refusalOfNormal_eq_none_iff]
    simp only [List.all_eq_true, not_forall, Bool.not_eq_true, exists_prop] at hblank
    exact ⟨fun h => ⟨hblank, h⟩, fun h => h.2⟩

lemma clean_of_accepts {sql : List Char} (h : accepts sql = true) :
    Clean (normalize (stripTerminator sql)) := (accepts_iff.mp h).2

/-! ## Before blanks are put together -/

/-- What opens a comment stands in one piece. -/
lemma HasOpener.exists_piece {cs : List Char} (h : HasOpener cs) :
    ∃ w ∈ Text.pieces cs, HasOpener w := by
  have hpart : ∃ w ∈ Text.splitWhere Text.isBlank cs, HasOpener w := by
    obtain ⟨xs, ys, rfl⟩ := h
    have hslash : Text.isBlank '/' = false := by decide
    have hstar : Text.isBlank '*' = false := by decide
    induction xs with
    | nil =>
      obtain ⟨v, vs, hys⟩ := List.exists_cons_of_ne_nil (Text.splitWhere_ne_nil Text.isBlank ys)
      refine ⟨'/' :: '*' :: v, ?_, ⟨[], v, rfl⟩⟩
      simp [hys, Text.splitStep, hslash, hstar]
    | cons c cs ih =>
      obtain ⟨w, hw, hopener⟩ := ih
      obtain ⟨v, vs, hcs⟩ := List.exists_cons_of_ne_nil
        (Text.splitWhere_ne_nil Text.isBlank (cs ++ '/' :: '*' :: ys))
      rw [hcs] at hw
      rw [List.cons_append, Text.splitWhere_cons, hcs]
      unfold Text.splitStep
      split
      · exact ⟨w, List.mem_cons_of_mem _ hw, hopener⟩
      · rcases List.mem_cons.mp hw with rfl | hmem
        · exact ⟨c :: w, List.mem_cons_self, hasOpener_cons.mpr (Or.inr hopener)⟩
        · exact ⟨w, List.mem_cons_of_mem _ hmem, hopener⟩
  obtain ⟨w, hw, hopener⟩ := hpart
  refine ⟨w, List.mem_filter.mpr ⟨hw, ?_⟩, hopener⟩
  obtain ⟨xs, ys, rfl⟩ := hopener
  simp

lemma HasOpener.of_isInfix {v w : List Char} (h : HasOpener v) (hvw : v <:+: w) :
    HasOpener w := by
  obtain ⟨xs, ys, rfl⟩ := h
  obtain ⟨us, vs, rfl⟩ := hvw
  exact ⟨us ++ xs, ys ++ vs, by simp⟩

section Uncommented

variable {cs : List Char} (h : Clean (normalize cs))
include h

/-- The guard finds no dangerous word in what it keeps of the text. -/
lemma Clean.harmless_uncommented : ∀ w ∈ Text.words (uncommented cs), ¬ Dangerous w := by
  intro w hw
  refine h.harmless w ?_
  rwa [normalize_eq, Text.words_spaced_pieces]

/-- It finds no semicolon there. -/
lemma Clean.semicolon_not_mem : ';' ∉ uncommented cs := by
  have hsingle := h.single
  rw [← List.count_eq_zero] at hsingle ⊢
  rwa [normalize_eq, Text.count_spaced_pieces (by decide)] at hsingle

/-- It counts as many closing as opening parentheses. -/
lemma Clean.balanced_uncommented : (uncommented cs).count '(' = (uncommented cs).count ')' := by
  have hbalanced := h.balanced
  rwa [normalize_eq, Text.count_spaced_pieces (by decide),
    Text.count_spaced_pieces (by decide)] at hbalanced

/-- It finds no comment that is left open. -/
lemma Clean.not_hasOpener : ¬ HasOpener (uncommented cs) := by
  intro hopener
  obtain ⟨w, hw, hin⟩ := hopener.exists_piece
  exact h.closed (hin.of_isInfix (Text.isInfix_spaced hw))

lemma Clean.leftOpen_eq_false : leftOpen (dropLineComments false cs) = false := by
  rw [← Bool.not_eq_true]
  exact fun hopen => h.not_hasOpener (hasOpener_of_leftOpen hopen)

lemma Clean.pieces_ne_nil : Text.pieces (uncommented cs) ≠ [] := by
  intro hnil
  have hreads := h.reads
  rw [normalize_eq, hnil] at hreads
  exact absurd hreads (by decide)

lemma Clean.ne_nil : cs ≠ [] := by
  rintro rfl
  exact h.pieces_ne_nil (by simp [Text.pieces])

end Uncommented

/-! ## The text that is checked -/

section Ends

variable {cs : List Char}

/-- The text begins with no blank and ends with neither a blank nor a semicolon. -/
structure Stripped (cs : List Char) : Prop where
  head_ok : ∀ c, cs.head? = some c → Text.isBlank c = false
  last_ok : ∀ c, cs.getLast? = some c → c ≠ ';' ∧ Text.isBlank c = false

/-- So is the text that is checked and run. -/
lemma stripped_stripTerminator (sql : List Char) : Stripped (stripTerminator sql) where
  head_ok := by
    intro c h
    exact Text.head?_dropWhile sql c (Text.head?_dropEndWhile (Text.head?_dropEndWhile h))
  last_ok := by
    intro c h
    simpa using Text.getLast?_dropEndWhile h

/-- The beginning of one such text and the end of another one. -/
lemma Stripped.append {xs ys zs : List Char} (h : Stripped (xs ++ zs)) (hxs : xs ≠ [])
    (hys : ys ≠ []) (hlast : ∀ c, ys.getLast? = some c → c ≠ ';' ∧ Text.isBlank c = false) :
    Stripped (xs ++ ys) where
  head_ok := by
    intro c hc
    obtain ⟨d, ds, rfl⟩ := List.exists_cons_of_ne_nil hxs
    exact h.head_ok c hc
  last_ok := by
    intro c hc
    rw [List.getLast?_append_of_ne_nil _ hys] at hc
    exact hlast c hc

/-- Nothing is taken from such a text. -/
lemma Stripped.stripTerminator_eq (h : Stripped cs) : stripTerminator cs = cs := by
  have htrim : Text.trim cs = cs := by
    rw [Text.trim, Text.dropWhile_eq_self h.head_ok]
    exact Text.dropEndWhile_eq_self fun c hc => (h.last_ok c hc).2
  rw [stripTerminator, htrim]
  refine Text.dropEndWhile_eq_self fun c hc => ?_
  simpa using h.last_ok c hc

/-- It is accepted if its normal form is clean. -/
lemma Stripped.accepts (h : Stripped cs) (hclean : Clean (normalize cs)) :
    accepts cs = true := by
  refine accepts_iff.mpr ⟨?_, by rwa [h.stripTerminator_eq]⟩
  obtain ⟨c, cs, rfl⟩ := List.exists_cons_of_ne_nil hclean.ne_nil
  exact ⟨c, List.mem_cons_self, h.head_ok c rfl⟩

end Ends

end RevenueDesk.Sql
