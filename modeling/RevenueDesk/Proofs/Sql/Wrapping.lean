/-
# A clean query inside the wrapper

What is sent to the database is the query inside a wrapper.  The query stands on lines of
its own there, and none of its comments is left open, so the guard reads the wrapped text as
three texts, one behind the other:

* `normalize_wrapped`: the normal form is that of the query, with the two parts of the
  wrapper around it;
* `Clean.wrap`: it is clean if that of the query is;
* `accepts_of_bind`: what is sent for a query that was accepted is accepted itself.
-/
import Mathlib
import RevenueDesk.Proofs.Sql.RewrittenClean

namespace RevenueDesk.Sql

/-- What the wrapper writes before the query, up to the end of the line. -/
def opening : List Char := "SELECT COALESCE(json_agg(q), '[]'::json) FROM (".toList

/-- What it writes behind the query, on the last line. -/
def closing : List Char := ") AS q".toList

lemma toList_wrapped (sql : String) :
    (wrapped sql).toList = opening ++ '\n' :: (sql.toList ++ '\n' :: closing) := by
  have hopening : "SELECT COALESCE(json_agg(q), '[]'::json) FROM (\n" =
      String.ofList opening ++ "\n" := by rfl
  have hclosing : "\n) AS q" = "\n" ++ String.ofList closing := by rfl
  have hnewline : "\n".toList = ['\n'] := by rfl
  unfold wrapped
  rw [hopening, hclosing]
  simp only [String.toList_append, String.toList_ofList, hnewline, List.append_assoc,
    List.cons_append, List.nil_append]

/-! ## The normal form -/

/-- What stands behind a clean text on a line of its own is kept. -/
lemma Clean.uncommented_append_newline {cs ys : List Char} (h : Clean (normalize cs))
    (hys : ∀ c ∈ '\n' :: ys, c ≠ '-' ∧ c ≠ '/') :
    uncommented (cs ++ '\n' :: ys) = uncommented cs ++ '\n' :: ys := by
  have hlines : dropLineComments false ys = ys := by
    have hdash : ∀ c ∈ ys, c ≠ '-' := fun c hc => (hys c (List.mem_cons_of_mem _ hc)).1
    simpa using dropLineComments_append_of_no_dash hdash []
  have hblocks : dropBlockComments ('\n' :: ys) = '\n' :: ys := by
    have hslash : ∀ c ∈ '\n' :: ys, c ≠ '/' := fun c hc => (hys c hc).2
    simpa using dropBlockComments_append_of_no_slash hslash []
  unfold uncommented
  rw [dropLineComments_append_newline, hlines,
    dropBlockComments_append h.leftOpen_eq_false (by simp), hblocks]

lemma Clean.normalize_append_newline {cs ys : List Char} (h : Clean (normalize cs))
    (hys : ∀ c ∈ '\n' :: ys, c ≠ '-' ∧ c ≠ '/') (hspaced : Text.spaced (Text.pieces ys) = ys)
    (hne : Text.pieces ys ≠ []) :
    normalize (cs ++ '\n' :: ys) = normalize cs ++ ' ' :: ys := by
  rw [normalize_eq, h.uncommented_append_newline hys, Text.pieces_append_cons (by decide),
    Text.spaced_append h.pieces_ne_nil hne, hspaced, normalize_eq]

/-- The normal form of a wrapped query. -/
theorem normalize_wrapped {sql : String} (h : Clean (normalize sql.toList)) :
    normalize (wrapped sql).toList =
      opening ++ ' ' :: (normalize sql.toList ++ ' ' :: closing) := by
  have hopening : ∀ c ∈ opening ++ ['\n'], c ≠ '-' ∧ c ≠ '/' := by decide
  have hspaced : Text.spaced (Text.pieces opening) = opening := by decide
  have hbehind : normalize (sql.toList ++ '\n' :: closing) =
      normalize sql.toList ++ ' ' :: closing :=
    h.normalize_append_newline (by decide) (by decide) (by decide)
  have hne : Text.pieces (uncommented (sql.toList ++ '\n' :: closing)) ≠ [] := by
    rw [h.uncommented_append_newline (by decide), Text.pieces_append_cons (by decide)]
    simp [h.pieces_ne_nil]
  rw [toList_wrapped, normalize_eq, List.append_cons, uncommented_append hopening,
    ← List.append_cons, Text.pieces_append_cons (by decide), Text.spaced_append (by decide) hne,
    hspaced, ← normalize_eq, hbehind]

/-! ## Behind the query -/

variable {e y rest : List Char}

/-- A word that a text begins with and that has no space stands before the first space. -/
lemma dropWord?_append_space {word : List Char} (hword : ' ' ∉ word)
    (h : Text.dropWord? word (e ++ ' ' :: y) = some rest) :
    ∃ rest₀, Text.dropWord? word e = some rest₀ ∧ rest = rest₀ ++ ' ' :: y := by
  induction word generalizing e with
  | nil =>
    obtain rfl : e ++ ' ' :: y = rest := by simpa [Text.dropWord?] using h
    exact ⟨e, rfl, rfl⟩
  | cons w ws ih =>
    obtain ⟨hw, hws⟩ : ' ' ≠ w ∧ ' ' ∉ ws := by simpa using hword
    cases e with
    | nil =>
      have hspace : Text.foldLetter ' ' = ' ' := by decide
      simp [Text.dropWord?, hspace, hw] at h
    | cons c cs =>
      rw [List.cons_append, Text.dropWord?] at h
      rw [Text.dropWord?]
      split at h
      · rename_i hc
        rw [if_pos hc]
        exact ih hws h
      · simp at h

/-- Blanks that a text begins with reach up to the first space or stand before it. -/
lemma dropBlanks?_append_space (h : dropBlanks? (e ++ ' ' :: y) = some rest) :
    rest = y.dropWhile Text.isBlank ∨
      ∃ rest₀, dropBlanks? e = some rest₀ ∧ rest = rest₀ ++ ' ' :: y := by
  have hspace : Text.isBlank ' ' = true := by decide
  cases e with
  | nil =>
    obtain rfl : y.dropWhile Text.isBlank = rest := by simpa [dropBlanks?, hspace] using h
    exact Or.inl rfl
  | cons c cs =>
    rw [List.cons_append, dropBlanks?] at h
    rw [dropBlanks?]
    split at h
    · rename_i hc
      rw [if_pos hc]
      rw [Option.some.injEq, List.dropWhile_append] at h
      split at h
      · rw [List.dropWhile_cons_of_pos hspace] at h
        exact Or.inl h.symm
      · exact Or.inr ⟨_, rfl, h.symm⟩
    · simp at h

lemma dropWord?_dropBlanks?_append_space {word : List Char} (hword : ' ' ∉ word)
    (h : (Text.dropWord? word (e ++ ' ' :: y)).bind dropBlanks? = some rest) :
    rest = y.dropWhile Text.isBlank ∨
      ∃ rest₀, (Text.dropWord? word e).bind dropBlanks? = some rest₀ ∧
        rest = rest₀ ++ ' ' :: y := by
  obtain ⟨r, hr, hblanks⟩ := Option.bind_eq_some_iff.mp h
  obtain ⟨r₀, hr₀, rfl⟩ := dropWord?_append_space hword hr
  rcases dropBlanks?_append_space hblanks with hbehind | ⟨rest₀, hrest₀, hrest⟩
  · exact Or.inl hbehind
  · refine Or.inr ⟨rest₀, ?_, hrest⟩
    rw [hr₀]
    exact hrest₀

lemma selectHere_of_append_space (h : selectHere (e ++ ' ' :: y) = true) :
    selectHere e = true := by
  obtain ⟨rest, hrest⟩ := Option.isSome_iff_exists.mp h
  obtain ⟨rest₀, hrest₀, -⟩ := dropWord?_append_space (by decide) hrest
  exact Option.isSome_iff_exists.mpr ⟨rest₀, hrest₀⟩

/-- A closing parenthesis behind the text does not complete a `UNION SELECT`. -/
lemma unionSelectHere_of_append_paren (h : unionSelectHere (e ++ ' ' :: ')' :: y) = true) :
    unionSelectHere e = true := by
  have hblank : (')' :: y).dropWhile Text.isBlank = ')' :: y :=
    List.dropWhile_cons_of_neg (by decide)
  have hletter : Text.foldLetter ')' = ')' := by decide
  have hselect : selectHere (')' :: y) = false := by simp [selectHere, Text.dropWord?, hletter]
  have hall : Text.dropWord? "all".toList (')' :: y) = none := by simp [Text.dropWord?, hletter]
  obtain ⟨rest, hrest, hbehind⟩ := unionSelectHere_iff.mp h
  rcases dropWord?_dropBlanks?_append_space (by decide) hrest with rfl | ⟨rest₀, hrest₀, rfl⟩
  · -- `UNION` would be the last word of the text
    rw [hblank, hselect, hall] at hbehind
    simp at hbehind
  · refine unionSelectHere_iff.mpr ⟨rest₀, hrest₀, ?_⟩
    rcases hbehind with hbehind | ⟨rest', hrest', hbehind⟩
    · exact Or.inl (selectHere_of_append_space hbehind)
    · rcases dropWord?_dropBlanks?_append_space (by decide) hrest' with rfl | ⟨r, hr, rfl⟩
      · -- `ALL` would be
        rw [hblank, hselect] at hbehind
        simp at hbehind
      · exact Or.inr ⟨r, hr, selectHere_of_append_space hbehind⟩

lemma anyEnd_unionSelectHere_append_paren
    (hy : anyEnd unionSelectHere (' ' :: ')' :: y) = false)
    (h : anyEnd unionSelectHere (e ++ ' ' :: ')' :: y) = true) :
    anyEnd unionSelectHere e = true := by
  induction e with
  | nil => simp [hy] at h
  | cons c cs ih =>
    rw [List.cons_append, anyEnd, Bool.or_eq_true] at h
    rw [anyEnd, Bool.or_eq_true]
    rcases h with hhere | hlater
    · rw [← List.cons_append] at hhere
      exact Or.inl (unionSelectHere_of_append_paren hhere)
    · exact Or.inr (ih hlater)

/-! ## The wrapped text is clean -/

/-- A space joins no words. -/
lemma harmless_append_space {xs ys : List Char} (hxs : ∀ w ∈ Text.words xs, ¬ Dangerous w)
    (hys : ∀ w ∈ Text.words ys, ¬ Dangerous w) :
    ∀ w ∈ Text.words (xs ++ ' ' :: ys), ¬ Dangerous w := by
  intro w hw
  rw [Text.words_append_cons (by decide), List.mem_append] at hw
  rcases hw with hw | hw
  · exact hxs w hw
  · exact hys w hw

/-- A clean text between the two parts of the wrapper is clean. -/
theorem Clean.wrap {text : List Char} (h : Clean text) :
    Clean (opening ++ ' ' :: (text ++ ' ' :: closing)) where
  harmless := by
    have hopening : ∀ w ∈ Text.words opening, ¬ Dangerous w := by decide
    have hclosing : ∀ w ∈ Text.words closing, ¬ Dangerous w := by decide
    exact harmless_append_space hopening (harmless_append_space h.harmless hclosing)
  reads := by rfl
  balanced := by
    have hopening : opening.count '(' = opening.count ')' + 1 := by decide
    have hclosing : closing.count ')' = closing.count '(' + 1 := by decide
    have htext := h.balanced
    simp only [List.count_append, List.count_cons, beq_iff_eq, Char.reduceEq, if_false]
    omega
  single := by
    have hopening : ';' ∉ opening := by decide
    have hclosing : ';' ∉ closing := by decide
    simp [hopening, hclosing, h.single]
  closed := by
    have hopening : ∀ c ∈ opening, c ≠ '/' := by decide
    have hclosing : ∀ c ∈ closing, c ≠ '/' := by decide
    rw [hasOpener_append_iff hopening, hasOpener_cons,
      hasOpener_append_cons (by decide) (by decide)]
    simp [h.closed, not_hasOpener_of_no_slash hclosing]
  no_union := by
    have hopening : ∀ c ∈ opening ++ [' '], Text.foldLetter c ≠ 'u' := by decide
    rw [← Bool.not_eq_true]
    intro hunion
    -- it begins behind the first part, as that one has no `u`
    rw [List.append_cons] at hunion
    have hbehind := anyEnd_append_of_forall_ne_u (opening ++ [' ']) hopening hunion
    have hclosing : closing = ')' :: " AS q".toList := by decide
    rw [hclosing] at hbehind
    simpa [h.no_union] using anyEnd_unionSelectHere_append_paren (by decide) hbehind

/-- A query with a clean normal form is accepted when it is wrapped. -/
theorem accepts_wrapped {sql : String} (h : Clean (normalize sql.toList)) :
    accepts (wrapped sql).toList = true := by
  have hstripped : Stripped (wrapped sql).toList := by
    refine ⟨fun c hc => ?_, fun c hc => ?_⟩
    · have hopening : opening.head? = some 'S' := by rfl
      rw [toList_wrapped, List.head?_append, hopening] at hc
      obtain rfl : 'S' = c := by simpa using hc
      decide
    · have hclosing : closing.getLast? = some 'q' := by rfl
      rw [toList_wrapped, List.getLast?_append, List.getLast?_cons, List.getLast?_append,
        List.getLast?_cons, hclosing] at hc
      obtain rfl : 'q' = c := by simpa using hc
      decide
  have hclean : Clean (normalize (wrapped sql).toList) := by
    rw [normalize_wrapped h]
    exact h.wrap
  exact hstripped.accepts hclean

/-- What is guarded is what is sent: if the guard accepts a query and its parameters can be
put in place, then the guard would accept the text with the parameters in place, and so it
would that text inside the wrapper. -/
theorem accepts_of_bind {sql : String} {parameters : List (String × Json)} {prepared : Prepared}
    (haccepts : accepts sql.toList = true)
    (hbind : bind parameters (String.ofList (stripTerminator sql.toList)) = .ok prepared) :
    accepts prepared.text.toList = true ∧ accepts (wrapped prepared.text).toList = true := by
  have hrewritten : Rewritten (stripTerminator sql.toList) prepared.text.toList := by
    simpa using rewritten_of_bind hbind
  have hclean : Clean (normalize prepared.text.toList) :=
    (clean_of_accepts haccepts).rewritten hrewritten.normalize
  exact ⟨hrewritten.accepts haccepts, accepts_wrapped hclean⟩

/-- A query with a comment, in which one reference gets a position and one becomes `NULL`. -/
def commentedQuery : String :=
  " select d --:m\nfrom t where m = :m and c in (:c, :c); "

/-- Its values. -/
def someValues : List (String × Json) := [("m", .null), ("c", .string "x")]

theorem accepts_of_bind_commentedQuery :
    ∃ prepared, accepts commentedQuery.toList = true ∧
      bind someValues (String.ofList (stripTerminator commentedQuery.toList)) = .ok prepared ∧
      accepts prepared.text.toList = true ∧ accepts (wrapped prepared.text).toList = true := by
  have haccepts : accepts commentedQuery.toList = true := by decide +kernel
  have hbind : bind someValues (String.ofList (stripTerminator commentedQuery.toList)) =
      .ok ⟨"select d --:m\nfrom t where m = NULL and c in ($1, $1)", [.string "x"]⟩ := by cbv
  exact ⟨_, haccepts, hbind, accepts_of_bind haccepts hbind⟩

end RevenueDesk.Sql
