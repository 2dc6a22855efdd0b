/-
# The guard as a grammar of words

Where no comment begins, nothing is taken out of a text, and the guard can be told of the text as
it stands: of its words, of the pieces between its blanks, and of some of its characters
(`Admissible`).  A text that is not admissible is refused for the first reason, in a fixed order
(`RefusedAs`).

The normal form puts one space between two pieces.  A word without blanks that is read there is
read in one piece (`dropWord?_spaced`), and every end of the normal form begins with an end of a
piece (`anyEnd_spaced_cons`).  These two turn what is looked for in the normal form, character by
character, into something about neighbouring pieces.
-/
import RevenueDesk.Proofs.Sql.CommentGap

namespace RevenueDesk.Sql

/-! ## Without comments -/

/-- No comment begins in the text. -/
structure CommentFree (cs : List Char) : Prop where
  no_line : ¬ ['-', '-'] <:+: cs
  no_block : ¬ ['/', '*'] <:+: cs

section CommentFree

variable {cs ds : List Char}

lemma CommentFree.of_isInfix (h : CommentFree cs) (hds : ds <:+: cs) : CommentFree ds where
  no_line := fun hline => h.no_line (hline.trans hds)
  no_block := fun hblock => h.no_block (hblock.trans hds)

lemma hasOpener_iff_isInfix : HasOpener cs ↔ ['/', '*'] <:+: cs := by
  simp [HasOpener, List.IsInfix, eq_comm]

lemma CommentFree.not_hasOpener (h : CommentFree cs) : ¬ HasOpener cs :=
  fun hopener => h.no_block (hasOpener_iff_isInfix.mp hopener)

lemma dropLineComments_eq_self (h : ¬ ['-', '-'] <:+: cs) : dropLineComments false cs = cs := by
  induction cs with
  | nil => rfl
  | cons c cs ih =>
    have hdashes : ¬ (c = '-' ∧ cs.head? = some '-') := by
      rintro ⟨rfl, hhead⟩
      obtain ⟨ds, rfl⟩ := List.head?_eq_some_iff.mp hhead
      exact h ⟨[], ds, rfl⟩
    rw [dropLineComments_outside, if_neg hdashes,
      ih fun hcs => h (hcs.trans (List.suffix_cons c cs).isInfix)]

lemma dropBlockComments_eq_self_of_not_hasOpener (h : ¬ HasOpener cs) :
    dropBlockComments cs = cs := by
  induction cs with
  | nil => simp
  | cons c cs ih =>
    rw [hasOpener_cons, not_or] at h
    rw [dropBlockComments_cons_of_ne h.1, ih h.2]

/-- Nothing is taken out. -/
lemma CommentFree.uncommented_eq (h : CommentFree cs) : uncommented cs = cs := by
  rw [uncommented, dropLineComments_eq_self h.no_line,
    dropBlockComments_eq_self_of_not_hasOpener h.not_hasOpener]

lemma isInfix_stripTerminator (cs : List Char) : stripTerminator cs <:+: cs := by
  have hfront : ∀ (p : Char → Bool) (ds : List Char), Text.dropEndWhile p ds <+: ds := by
    intro p ds
    obtain ⟨t, ht, -⟩ := Text.exists_dropEndWhile_append p ds
    exact ⟨t, ht.symm⟩
  exact ((hfront _ _).trans (hfront _ _)).isInfix.trans
    (List.dropWhile_suffix Text.isBlank).isInfix

end CommentFree

/-! ## Pieces with spaces between them -/

/-- None of them is empty, and none has a blank in it. -/
def ArePieces (ws : List (List Char)) : Prop :=
  ∀ w ∈ ws, w ≠ [] ∧ ∀ c ∈ w, Text.isBlank c = false

lemma arePieces_pieces (cs : List Char) : ArePieces (Text.pieces cs) :=
  fun _ hw => ⟨Text.ne_nil_of_mem_runs hw, fun _ hc => Text.eq_false_of_mem_runs hw hc⟩

section Spaced

variable {v w word : List Char} {ws : List (List Char)}

/-- No blanks stand in front. -/
lemma ArePieces.dropWhile_spaced (h : ArePieces ws) :
    (Text.spaced ws).dropWhile Text.isBlank = Text.spaced ws := by
  cases ws with
  | nil => rfl
  | cons w ws =>
    obtain ⟨hne, hw⟩ := h w List.mem_cons_self
    obtain ⟨c, cs, rfl⟩ := List.exists_cons_of_ne_nil hne
    rw [Text.spaced_cons_char, List.dropWhile_cons_of_neg (by simp [hw c List.mem_cons_self])]

lemma IsSmallWord.not_mem_space (h : IsSmallWord word) : ' ' ∉ word :=
  fun hmem => absurd (h ' ' hmem) (by decide)

/-- A word is read in the first piece. -/
lemma dropWord?_spaced (hword : IsSmallWord word) (hws : ws ≠ []) :
    Text.dropWord? word (Text.spaced (v :: ws)) =
      (Text.dropWord? word v).map (· ++ ' ' :: Text.spaced ws) := by
  rw [Text.spaced_cons_of_ne_nil hws]
  ext rest
  rw [Option.map_eq_some_iff]
  constructor
  · intro h
    obtain ⟨rest₀, hrest₀, rfl⟩ := dropWord?_append_space hword.not_mem_space h
    exact ⟨rest₀, hrest₀, rfl⟩
  · rintro ⟨rest₀, hrest₀, rfl⟩
    obtain ⟨used, rfl, hused⟩ := Text.dropWord?_eq_some_iff.mp hrest₀
    exact Text.dropWord?_eq_some_iff.mpr ⟨used, by rw [List.append_assoc], hused⟩

lemma dropBlanks?_of_not_blank (hv : ∀ c ∈ v, Text.isBlank c = false) : dropBlanks? v = none := by
  cases v with
  | nil => rfl
  | cons c cs => simp [dropBlanks?, hv c List.mem_cons_self]

/-- A word with blanks behind it is the first piece, and more pieces stand behind it. -/
lemma dropWord?_dropBlanks?_spaced {word : String} (hword : IsSmallWord word.toList)
    (hv : ∀ c ∈ v, Text.isBlank c = false) (hws : ArePieces ws) {rest : List Char} :
    (Text.dropWord? word.toList (Text.spaced (v :: ws))).bind dropBlanks? = some rest ↔
      Text.sameWord word v = true ∧ ws ≠ [] ∧ rest = Text.spaced ws := by
  have hrest : ∀ {r : List Char}, Text.dropWord? word.toList v = some r →
      ∀ c ∈ r, Text.isBlank c = false := by
    intro r hr c hc
    obtain ⟨used, rfl, -⟩ := Text.dropWord?_eq_some_iff.mp hr
    exact hv c (List.mem_append_right used hc)
  have hspace : dropBlanks? (' ' :: Text.spaced ws) = some (Text.spaced ws) := by
    rw [dropBlanks?, if_pos (by decide), hws.dropWhile_spaced]
  by_cases hnil : ws = []
  · subst hnil
    rw [Text.spaced_singleton, Option.bind_eq_some_iff]
    simp only [ne_eq, not_true_eq_false, false_and, and_false, iff_false, not_exists, not_and]
    intro r hr
    rw [dropBlanks?_of_not_blank (hrest hr)]
    simp
  · rw [dropWord?_spaced hword hnil, ← dropWord?_eq_nil_iff]
    rcases hdrop : Text.dropWord? word.toList v with _ | _ | ⟨c, cs⟩
    · simp
    · simp [hspace, hnil, eq_comm]
    · simp [dropBlanks?, hrest hdrop c List.mem_cons_self]

/-- The piece begins with the word, up to case. -/
def Begins (word : String) (w : List Char) : Prop :=
  ∃ v, v <+: w ∧ Text.sameWord word v = true

/-- The piece ends with the word, up to case. -/
def Ends (word : String) (w : List Char) : Prop :=
  ∃ v, v <:+ w ∧ Text.sameWord word v = true

lemma isSome_dropWord?_iff {word : String} :
    (Text.dropWord? word.toList w).isSome ↔ Begins word w := by
  simp only [Option.isSome_iff_exists, Text.dropWord?_eq_some_iff, Begins, List.IsPrefix,
    Text.sameWord, beq_iff_eq]
  constructor
  · rintro ⟨rest, used, rfl, hused⟩
    exact ⟨used, ⟨rest, rfl⟩, hused⟩
  · rintro ⟨used, ⟨rest, rfl⟩, hused⟩
    exact ⟨rest, used, rfl, hused⟩

lemma selectHere_spaced : selectHere (Text.spaced (w :: ws)) = true ↔ Begins "select" w := by
  rw [← isSome_dropWord?_iff, selectHere]
  by_cases hnil : ws = []
  · rw [hnil, Text.spaced_singleton]
  · rw [dropWord?_spaced (by decide) hnil, Option.isSome_map]

/-! ## The beginning of a query -/

/-- A query that reads has its first word for its first piece, and a second piece. -/
lemma isReadStatement_spaced_iff (h : ArePieces ws) :
    isReadStatement (Text.spaced ws) = true ↔ ∃ p q rest, ws = p :: q :: rest ∧ IsReadWord p := by
  cases ws with
  | nil =>
    have hnil : isReadStatement [] = false := by decide
    simp [hnil]
  | cons p ws =>
    obtain ⟨hp, hws⟩ := List.forall_mem_cons.mp h
    have hbegins : ∀ word : String, IsSmallWord word.toList →
        (beginsWith word (Text.spaced (p :: ws)) = true ↔
          Text.sameWord word p = true ∧ ws ≠ []) := by
      intro word hword
      simp only [beginsWith, Option.isSome_iff_exists,
        dropWord?_dropBlanks?_spaced hword hp.2 hws, exists_and_left, exists_eq, and_true]
    rw [isReadStatement, Bool.or_eq_true, hbegins "select" (by decide), hbegins "with" (by decide),
      ← or_and_right]
    constructor
    · rintro ⟨hword, hne⟩
      obtain ⟨q, rest, rfl⟩ := List.exists_cons_of_ne_nil hne
      exact ⟨p, q, rest, rfl, hword⟩
    · rintro ⟨p', q, rest, heq, hword⟩
      obtain ⟨rfl, rfl⟩ := List.cons.inj heq
      exact ⟨hword, by simp⟩

/-! ## `UNION SELECT` -/

/-- The next piece begins with `SELECT`, or the one behind a piece `ALL`. -/
inductive SelectNext : List (List Char) → Prop where
  | direct {w : List Char} {ws : List (List Char)} (select : Begins "select" w) :
      SelectNext (w :: ws)
  | all {a w : List Char} {ws : List (List Char)} (all : Text.sameWord "all" a = true)
      (select : Begins "select" w) : SelectNext (a :: w :: ws)

/-- A piece ends with `UNION`, and `SELECT` is next. -/
inductive UnionSelect : List (List Char) → Prop where
  | here {w : List Char} {ws : List (List Char)} (union : Ends "union" w)
      (next : SelectNext ws) : UnionSelect (w :: ws)
  | later {w : List Char} {ws : List (List Char)} (behind : UnionSelect ws) :
      UnionSelect (w :: ws)

lemma unionSelect_cons_iff :
    UnionSelect (w :: ws) ↔ (Ends "union" w ∧ SelectNext ws) ∨ UnionSelect ws := by
  constructor
  · rintro (⟨union, next⟩ | ⟨behind⟩)
    · exact .inl ⟨union, next⟩
    · exact .inr behind
  · rintro (⟨union, next⟩ | behind)
    · exact .here union next
    · exact .later behind

lemma selectNext_iff (h : ArePieces ws) (hne : ws ≠ []) :
    SelectNext ws ↔ selectHere (Text.spaced ws) = true ∨
      ∃ rest, (Text.dropWord? "all".toList (Text.spaced ws)).bind dropBlanks? = some rest ∧
        selectHere rest = true := by
  obtain ⟨w, us, rfl⟩ := List.exists_cons_of_ne_nil hne
  obtain ⟨hw, hus⟩ := List.forall_mem_cons.mp h
  have hall : ∀ rest, (Text.dropWord? "all".toList (Text.spaced (w :: us))).bind dropBlanks? =
      some rest ↔ Text.sameWord "all" w = true ∧ us ≠ [] ∧ rest = Text.spaced us :=
    fun rest => dropWord?_dropBlanks?_spaced (by decide) hw.2 hus
  simp only [hall, selectHere_spaced]
  constructor
  · rintro (⟨select⟩ | ⟨all, select⟩)
    · exact .inl select
    · exact .inr ⟨_, ⟨all, by simp, rfl⟩, selectHere_spaced.mpr select⟩
  · rintro (select | ⟨_, ⟨all, hus, rfl⟩, select⟩)
    · exact .direct select
    · obtain ⟨u, us, rfl⟩ := List.exists_cons_of_ne_nil hus
      exact .all all (selectHere_spaced.mp select)

/-- `UNION` is all of the first piece. -/
lemma unionSelectHere_spaced_iff (hv : ∀ c ∈ v, Text.isBlank c = false) (hws : ArePieces ws) :
    unionSelectHere (Text.spaced (v :: ws)) = true ↔
      Text.sameWord "union" v = true ∧ SelectNext ws := by
  have hunion : ∀ rest, (Text.dropWord? "union".toList (Text.spaced (v :: ws))).bind dropBlanks? =
      some rest ↔ Text.sameWord "union" v = true ∧ ws ≠ [] ∧ rest = Text.spaced ws :=
    fun rest => dropWord?_dropBlanks?_spaced (by decide) hv hws
  simp only [unionSelectHere_iff, hunion]
  constructor
  · rintro ⟨_, ⟨union, hne, rfl⟩, next⟩
    exact ⟨union, (selectNext_iff hws hne).mpr next⟩
  · rintro ⟨union, next⟩
    have hne : ws ≠ [] := by
      rintro rfl
      cases next
    exact ⟨_, ⟨union, hne, rfl⟩, (selectNext_iff hws hne).mp next⟩

/-- Every end of the text begins with an end of a piece. -/
lemma anyEnd_spaced_cons {p : List Char → Bool} (w : List Char) (ws : List (List Char)) :
    anyEnd p (Text.spaced (w :: ws)) = true ↔
      (∃ v, v <:+ w ∧ p (Text.spaced (v :: ws)) = true) ∨ anyEnd p (Text.spaced ws) = true := by
  induction w with
  | nil =>
    by_cases hnil : ws = []
    · simp [hnil, anyEnd]
    · simp [Text.spaced_cons_of_ne_nil hnil, anyEnd]
  | cons c cs ih =>
    rw [Text.spaced_cons_char, anyEnd, Bool.or_eq_true, ih, ← Text.spaced_cons_char]
    simp only [List.suffix_cons_iff, or_and_right, exists_or, exists_eq_left, or_assoc]

/-- It is found in neighbouring pieces. -/
lemma anyEnd_unionSelectHere_spaced_iff (h : ArePieces ws) :
    anyEnd unionSelectHere (Text.spaced ws) = true ↔ UnionSelect ws := by
  induction ws with
  | nil =>
    have hnil : anyEnd unionSelectHere [] = false := by decide
    simp only [Text.spaced_nil, hnil, Bool.false_eq_true, false_iff]
    rintro ⟨⟩
  | cons w ws ih =>
    obtain ⟨hw, hws⟩ := List.forall_mem_cons.mp h
    rw [anyEnd_spaced_cons, ih hws, unionSelect_cons_iff, Ends]
    refine or_congr_left ?_
    constructor
    · rintro ⟨v, hv, hhere⟩
      obtain ⟨union, next⟩ :=
        (unionSelectHere_spaced_iff (fun c hc => hw.2 c (hv.subset hc)) hws).mp hhere
      exact ⟨⟨v, hv, union⟩, next⟩
    · rintro ⟨⟨v, hv, union⟩, next⟩
      exact ⟨v, hv,
        (unionSelectHere_spaced_iff (fun c hc => hw.2 c (hv.subset hc)) hws).mpr ⟨union, next⟩⟩

end Spaced

/-! ## What is admissible -/

/-- No word of the text is dangerous. -/
def Harmless (text : List Char) : Prop := ∀ w ∈ Text.words text, ¬ Dangerous w

/-- The first piece is `SELECT` or `WITH`, and there is a second one. -/
def BeginsToRead (text : List Char) : Prop :=
  ∃ p q rest, Text.pieces text = p :: q :: rest ∧ IsReadWord p

/-- As many parentheses are closed as opened. -/
def Balanced (text : List Char) : Prop := text.count '(' = text.count ')'

/-- There is nothing in the text to refuse it for. -/
structure Admissible (text : List Char) : Prop where
  harmless : Harmless text
  reads : BeginsToRead text
  balanced : Balanced text
  single : ';' ∉ text
  no_union : ¬ UnionSelect (Text.pieces text)

/-- The text is refused for the first thing that is wrong with it. -/
inductive RefusedAs (text : List Char) : Refusal → Prop where
  | dangerous {before after : List (List Char)} {w : List Char}
      (words : Text.words text = before ++ w :: after) (first : ∀ v ∈ before, ¬ Dangerous v)
      (danger : Dangerous w) : RefusedAs text (.dangerous (Text.upper w))
  | notRead (harmless : Harmless text) (notRead : ¬ BeginsToRead text) : RefusedAs text .notRead
  | unbalanced (harmless : Harmless text) (reads : BeginsToRead text)
      (unbalanced : ¬ Balanced text) : RefusedAs text .unbalanced
  | several (harmless : Harmless text) (reads : BeginsToRead text) (balanced : Balanced text)
      (several : ';' ∈ text) : RefusedAs text .several
  | suspicious (harmless : Harmless text) (reads : BeginsToRead text) (balanced : Balanced text)
      (single : ';' ∉ text) (union : UnionSelect (Text.pieces text)) : RefusedAs text .suspicious

section Normal

variable {text : List Char}

lemma CommentFree.normalize_eq (h : CommentFree text) :
    normalize text = Text.spaced (Text.pieces text) := by
  rw [Sql.normalize_eq, h.uncommented_eq]

lemma CommentFree.words_normalize (h : CommentFree text) :
    Text.words (normalize text) = Text.words text := by
  rw [h.normalize_eq, Text.words_spaced_pieces]

lemma CommentFree.harmless_normalize_iff (h : CommentFree text) :
    (∀ w ∈ Text.words (normalize text), ¬ Dangerous w) ↔ Harmless text := by
  rw [h.words_normalize, Harmless]

lemma CommentFree.isReadStatement_normalize_iff (h : CommentFree text) :
    isReadStatement (normalize text) = true ↔ BeginsToRead text := by
  rw [h.normalize_eq, isReadStatement_spaced_iff (arePieces_pieces text), BeginsToRead]

lemma CommentFree.count_normalize (h : CommentFree text) {c : Char}
    (hc : Text.isBlank c = false) : (normalize text).count c = text.count c := by
  rw [h.normalize_eq, Text.count_spaced_pieces hc]

lemma CommentFree.balanced_normalize_iff (h : CommentFree text) :
    (normalize text).count '(' = (normalize text).count ')' ↔ Balanced text := by
  rw [h.count_normalize (by decide), h.count_normalize (by decide), Balanced]

lemma CommentFree.semicolon_mem_normalize_iff (h : CommentFree text) :
    ';' ∈ normalize text ↔ ';' ∈ text := by
  rw [← List.count_pos_iff, h.count_normalize (by decide), List.count_pos_iff]

lemma exists_hasOpener_of_spaced {ws : List (List Char)} (h : HasOpener (Text.spaced ws)) :
    ∃ w ∈ ws, HasOpener w := by
  induction ws with
  | nil => exact absurd h not_hasOpener_nil
  | cons w ws ih =>
    by_cases hnil : ws = []
    · exact ⟨w, List.mem_cons_self, by simpa [hnil] using h⟩
    · rw [Text.spaced_cons_of_ne_nil hnil, hasOpener_append_cons (by decide) (by decide)] at h
      rcases h with hw | hws
      · exact ⟨w, List.mem_cons_self, hw⟩
      · obtain ⟨v, hv, hopener⟩ := ih hws
        exact ⟨v, List.mem_cons_of_mem w hv, hopener⟩

/-- No comment begins in the normal form either. -/
lemma CommentFree.not_hasOpener_normalize (h : CommentFree text) :
    ¬ HasOpener (normalize text) := by
  intro hopener
  rw [h.normalize_eq] at hopener
  obtain ⟨w, hw, hin⟩ := exists_hasOpener_of_spaced hopener
  exact h.not_hasOpener (hin.of_isInfix (Text.isInfix_of_mem_runs hw))

lemma CommentFree.anyEnd_commentHere_normalize (h : CommentFree text) :
    anyEnd commentHere (normalize text) = false := by
  rw [← Bool.not_eq_true, anyEnd_commentHere_iff]
  exact h.not_hasOpener_normalize

lemma CommentFree.anyEnd_unionSelectHere_normalize_iff (h : CommentFree text) :
    anyEnd unionSelectHere (normalize text) = true ↔ UnionSelect (Text.pieces text) := by
  rw [h.normalize_eq, anyEnd_unionSelectHere_spaced_iff (arePieces_pieces text)]

/-- The normal form is clean exactly if the text is admissible. -/
theorem CommentFree.clean_normalize_iff (h : CommentFree text) :
    Clean (normalize text) ↔ Admissible text := by
  have hunion : anyEnd unionSelectHere (normalize text) = false ↔
      ¬ UnionSelect (Text.pieces text) := by
    rw [← h.anyEnd_unionSelectHere_normalize_iff, Bool.not_eq_true]
  constructor
  · rintro ⟨harmless, hreads, hbalanced, hsingle, -, hno⟩
    exact ⟨h.harmless_normalize_iff.mp harmless, h.isReadStatement_normalize_iff.mp hreads,
      h.balanced_normalize_iff.mp hbalanced, mt h.semicolon_mem_normalize_iff.mpr hsingle,
      hunion.mp hno⟩
  · rintro ⟨harmless, hreads, hbalanced, hsingle, hno⟩
    exact ⟨h.harmless_normalize_iff.mpr harmless, h.isReadStatement_normalize_iff.mpr hreads,
      h.balanced_normalize_iff.mpr hbalanced, mt h.semicolon_mem_normalize_iff.mp hsingle,
      h.not_hasOpener_normalize, hunion.mpr hno⟩

lemma dangerousWord?_eq_some_iff {w : List Char} : dangerousWord? text = some w ↔
    Dangerous w ∧ ∃ before after, Text.words text = before ++ w :: after ∧
      ∀ v ∈ before, ¬ Dangerous v := by
  simp [dangerousWord?, List.find?_eq_some_iff_append, Dangerous]

/-- What the normal form is refused for is the first thing that is wrong with the text. -/
theorem CommentFree.refusalOfNormal_eq_some_iff (h : CommentFree text) {r : Refusal} :
    refusalOfNormal (normalize text) = some r ↔ RefusedAs text r := by
  constructor
  · intro hr
    unfold refusalOfNormal at hr
    split at hr
    · rename_i w hw
      obtain rfl := Option.some.inj hr
      obtain ⟨danger, before, after, hwords, first⟩ := dangerousWord?_eq_some_iff.mp hw
      exact .dangerous (h.words_normalize ▸ hwords) first danger
    · rename_i hnone
      have harmless := h.harmless_normalize_iff.mp (dangerousWord?_eq_none_iff.mp hnone)
      rw [h.anyEnd_commentHere_normalize, Bool.false_or] at hr
      split_ifs at hr with hreads hbalanced hsingle hunion
      · obtain rfl := Option.some.inj hr
        exact .notRead harmless (mt h.isReadStatement_normalize_iff.mpr (by simpa using hreads))
      all_goals replace hreads := h.isReadStatement_normalize_iff.mp (by simpa using hreads)
      · obtain rfl := Option.some.inj hr
        exact .unbalanced harmless hreads (mt h.balanced_normalize_iff.mpr hbalanced)
      all_goals replace hbalanced := h.balanced_normalize_iff.mp (not_not.mp hbalanced)
      · obtain rfl := Option.some.inj hr
        exact .several harmless hreads hbalanced
          (h.semicolon_mem_normalize_iff.mp (by simpa using hsingle))
      all_goals replace hsingle := mt h.semicolon_mem_normalize_iff.mpr (by simpa using hsingle)
      · obtain rfl := Option.some.inj hr
        exact .suspicious harmless hreads hbalanced hsingle
          (h.anyEnd_unionSelectHere_normalize_iff.mp hunion)
  · intro hr
    have hnone : Harmless text → dangerousWord? (normalize text) = none := fun harmless =>
      dangerousWord?_eq_none_iff.mpr (h.harmless_normalize_iff.mpr harmless)
    cases hr with
    | dangerous hwords first danger =>
      have hsome := dangerousWord?_eq_some_iff.mpr
        ⟨danger, _, _, h.words_normalize.trans hwords, first⟩
      rw [refusalOfNormal, hsome]
    | notRead harmless notRead =>
      have hreads := mt h.isReadStatement_normalize_iff.mp notRead
      simp [refusalOfNormal, hnone harmless, hreads]
    | unbalanced harmless reads unbalanced =>
      have hreads := h.isReadStatement_normalize_iff.mpr reads
      have hbalanced := mt h.balanced_normalize_iff.mp unbalanced
      simp [refusalOfNormal, hnone harmless, hreads, hbalanced]
    | several harmless reads balanced several =>
      have hreads := h.isReadStatement_normalize_iff.mpr reads
      have hbalanced := h.balanced_normalize_iff.mpr balanced
      have hseveral := h.semicolon_mem_normalize_iff.mpr several
      simp [refusalOfNormal, hnone harmless, hreads, hbalanced, hseveral]
    | suspicious harmless reads balanced single union =>
      have hreads := h.isReadStatement_normalize_iff.mpr reads
      have hbalanced := h.balanced_normalize_iff.mpr balanced
      have hsingle := mt h.semicolon_mem_normalize_iff.mp single
      have hunion := h.anyEnd_unionSelectHere_normalize_iff.mpr union
      simp [refusalOfNormal, hnone harmless, hreads, hbalanced, hsingle, hunion]

end Normal

/-! ## The guard -/

/-- The guard, told of the text that is checked as it stands:

* it accepts the admissible texts, and no others;
* a query of blanks is empty, and no other is;
* any other query that is not admissible is refused for the first thing that is wrong with it. -/
structure GuardsByWords (sql : List Char) : Prop where
  accepted : accepts sql = true ↔ Admissible (stripTerminator sql)
  empty : refusal? sql = some .empty ↔ ∀ c ∈ sql, Text.isBlank c = true
  refused : (∃ c ∈ sql, Text.isBlank c = false) → ∀ r : Refusal,
    refusal? sql = some r ↔ RefusedAs (stripTerminator sql) r

/-- The guard of a query in which no comment begins is a grammar of words, pieces and
characters. -/
theorem guardsByWords {sql : List Char} (h : CommentFree sql) : GuardsByWords sql := by
  have hchecked : CommentFree (stripTerminator sql) := h.of_isInfix (isInfix_stripTerminator sql)
  have hrefused : (∃ c ∈ sql, Text.isBlank c = false) → ∀ r : Refusal,
      refusal? sql = some r ↔ RefusedAs (stripTerminator sql) r := by
    intro hsome r
    have hblank : ¬ sql.all Text.isBlank = true := by simpa using hsome
    rw [refusal?, if_neg hblank, hchecked.refusalOfNormal_eq_some_iff]
  refine ⟨?_, ?_, hrefused⟩
  · rw [accepts_iff_clean, ← normalize_stripTerminator, hchecked.clean_normalize_iff]
  · constructor
    · intro hempty
      by_contra hsome
      cases (hrefused (by simpa using hsome) _).mp hempty
    · intro hblank
      rw [refusal?, if_pos (List.all_eq_true.mpr hblank)]

/-- A query with words and pieces that only resemble those that are looked for. -/
def resemblingQuery : List Char :=
  "select created_at from tasks where last_update_by = 'union_all select'; ".toList

theorem guardsByWords_resemblingQuery :
    CommentFree resemblingQuery ∧ GuardsByWords resemblingQuery := by
  have hdash : '-' ∉ resemblingQuery := by decide
  have hslash : '/' ∉ resemblingQuery := by decide
  have hfree : CommentFree resemblingQuery :=
    ⟨fun h => hdash (h.subset List.mem_cons_self), fun h => hslash (h.subset List.mem_cons_self)⟩
  exact ⟨hfree, guardsByWords hfree⟩

end RevenueDesk.Sql
