/-
# A comment in the place of a space

To the database a comment is a space.  The guard takes it out and puts the texts around it
side by side, so its answer may be another one with a comment than with a space.  Where the
guard is in no other comment (`InNoComment`), the two answers are known exactly:

* `InNoComment.accepts_comment`: with the comment, the texts are checked side by side;
* `InNoComment.accepts_space`: with a space, they are checked with a space between them;
* `Clean.accepts_hidden`: behind every query that is accepted a comment hides a `UNION SELECT`,
  and every dangerous word;
* `comment_gap`: all that is known of the two answers.  Unless a word goes across the seam,
  they differ only by what a blank is needed for.
-/
import RevenueDesk.Proofs.Sql.CutPoint
import RevenueDesk.Proofs.Sql.Insertion
import RevenueDesk.Proofs.Sql.Scan
import RevenueDesk.Proofs.Sql.Seam

namespace RevenueDesk.Sql

/-- A block comment with the text `b` inside. -/
def commentOf (b : List Char) : List Char := '/' :: '*' :: b ++ ['*', '/']

/-- A text that can be the inside of a comment: nothing in it begins or ends a comment. -/
structure CommentBody (b : List Char) : Prop where
  no_opener : ¬ HasOpener b
  no_closer : closeComment? b = none

instance (b : List Char) : Decidable (CommentBody b) :=
  decidable_of_iff (¬ anyEnd commentHere b = true ∧ closeComment? b = none)
    ⟨fun ⟨hopener, hcloser⟩ => ⟨mt anyEnd_commentHere_iff.mpr hopener, hcloser⟩,
      fun h => ⟨mt anyEnd_commentHere_iff.mp h.no_opener, h.no_closer⟩⟩

/-- Behind the text the guard is in no comment. -/
structure InNoComment (u : List Char) : Prop where
  line : endsInside false u = false
  block : leftOpen (dropLineComments false u) = false

instance (u : List Char) : Decidable (InNoComment u) :=
  decidable_of_iff (endsInside false u = false ∧ leftOpen (dropLineComments false u) = false)
    ⟨fun ⟨hline, hblock⟩ => ⟨hline, hblock⟩, fun ⟨hline, hblock⟩ => ⟨hline, hblock⟩⟩

/-- A text without blanks and semicolons at its end. -/
def stripEnd (cs : List Char) : List Char :=
  Text.dropEndWhile (fun c => c == ';' || Text.isBlank c) cs

/-- Nothing else is taken from its end. -/
lemma exists_stripEnd_append (cs : List Char) :
    ∃ t, cs = stripEnd cs ++ t ∧ ∀ c ∈ t, (c == ';' || Text.isBlank c) = true :=
  Text.exists_dropEndWhile_append _ cs

/-! ## What is taken from the ends of a text -/

section Ends

variable {xs : List Char}

/-- Blanks in front of a text do not count. -/
lemma normalize_append_of_blank (h : ∀ c ∈ xs, Text.isBlank c = true) (ys : List Char) :
    normalize (xs ++ ys) = normalize ys := by
  have hplain : ∀ c ∈ xs, c ≠ '-' ∧ c ≠ '/' := by
    intro c hc
    have hblank := h c hc
    constructor
    all_goals
      rintro rfl
      exact absurd hblank (by decide)
  have hpieces : Text.pieces (xs ++ uncommented ys) = Text.pieces (uncommented ys) := by
    clear hplain
    induction xs with
    | nil => rfl
    | cons x xs ih =>
      obtain ⟨hx, hxs⟩ := List.forall_mem_cons.mp h
      rw [List.cons_append, pieces_cons_of_blank hx, ih hxs]
  rw [normalize_eq, uncommented_append hplain, hpieces, normalize_eq]

/-- The normal form does not depend on what is trimmed in front. -/
lemma normalize_stripTerminator (sql : List Char) :
    normalize (stripTerminator sql) = normalize (stripEnd sql) := by
  have hstrip : stripTerminator sql = stripEnd (sql.dropWhile Text.isBlank) :=
    Text.dropEndWhile_dropEndWhile (by simp +contextual) _
  have hfront : ∀ c ∈ sql.takeWhile Text.isBlank, Text.isBlank c = true :=
    fun c hc => List.mem_takeWhile_imp hc
  have hnil : stripEnd (sql.takeWhile Text.isBlank) = [] :=
    Text.dropEndWhile_eq_nil_iff.mpr fun c hc => by simp [hfront c hc]
  rw [hstrip]
  conv_rhs => rw [← List.takeWhile_append_dropWhile (p := Text.isBlank) (l := sql), stripEnd,
    Text.dropEndWhile_append]
  split
  · rename_i hrest
    rw [stripEnd, hrest, ← stripEnd, hnil]
  · exact (normalize_append_of_blank hfront _).symm

/-- The guard accepts a text exactly if it is clean without what may stand at its end. -/
lemma accepts_iff_clean {sql : List Char} :
    accepts sql = true ↔ Clean (normalize (stripEnd sql)) := by
  rw [accepts_iff, normalize_stripTerminator]
  refine and_iff_right_of_imp fun hclean => ?_
  rw [← normalize_stripTerminator] at hclean
  -- nothing but blanks has an empty normal form, which is not clean
  by_contra hblank
  have hall : ∀ c ∈ sql, Text.isBlank c = true := by simpa using hblank
  refine hclean.ne_nil ?_
  have hfront : sql.dropWhile Text.isBlank = [] := List.dropWhile_eq_nil_iff.mpr hall
  rw [stripTerminator, Text.trim, hfront]
  rfl

end Ends

/-! ## What the guard keeps -/

section Keeps

variable {u b v : List Char}

/-- The comment is closed by its own end. -/
lemma CommentBody.closeComment? (hb : CommentBody b) (v : List Char) :
    closeComment? (b ++ '*' :: '/' :: v) = some (b, v) := by
  refine closeComment?_eq_some_iff.mpr ⟨rfl, ?_⟩
  by_contra hne
  obtain ⟨⟨inner, rest⟩, hclose⟩ := Option.ne_none_iff_exists'.mp hne
  have htext := closeComment?_eq hclose
  rcases List.eq_nil_or_concat rest with rfl | ⟨rs, r, rfl⟩
  · -- the last character is a star
    have hlast := congrArg List.getLast? htext
    simp at hlast
  · have hinit : b ++ ['*'] = (inner ++ '*' :: '/' :: rs) ++ [r] := by simpa using htext
    obtain ⟨hbody, -⟩ := List.append_inj' hinit rfl
    obtain ⟨i, r', hsome, -⟩ := closeComment?_shortest hbody
    rw [hb.no_closer] at hsome
    exact absurd hsome (by simp)

lemma InNoComment.uncommented_append (h : InNoComment u) {z : List Char}
    (hdash : z.head? ≠ some '-') (hstar : (dropLineComments false z).head? ≠ some '*') :
    uncommented (u ++ z) = uncommented u ++ uncommented z := by
  unfold uncommented
  rw [dropLineComments_append fun _ _ => hdash, h.line,
    dropBlockComments_append h.block fun _ => hstar]

lemma commentOf_append (b v : List Char) :
    commentOf b ++ v = '/' :: '*' :: (b ++ '*' :: '/' :: v) := by simp [commentOf]

/-- The comment is taken out. -/
lemma InNoComment.uncommented_comment (h : InNoComment u) (hb : CommentBody b)
    (hline : endsInside false b = false) (v : List Char) :
    uncommented (u ++ (commentOf b ++ v)) = uncommented u ++ uncommented v := by
  rw [commentOf_append, h.uncommented_append (by simp) (by simp [dropLineComments_outside]),
    uncommented_blockComment (hb.closeComment? v) hline]

/-- The space stays. -/
lemma InNoComment.uncommented_space (h : InNoComment u) (v : List Char) :
    uncommented (u ++ ' ' :: v) = uncommented u ++ ' ' :: uncommented v := by
  rw [h.uncommented_append (by simp) (by simp [dropLineComments_outside]),
    uncommented_cons (by simp) (by simp)]

/-- If a line comment begins inside, the end of the comment is not found on the line. -/
lemma InNoComment.uncommented_dashes (h : InNoComment u) (hb : CommentBody b)
    (hline : endsInside false b = true) (hv : '\n' ∉ v) :
    uncommented (u ++ (commentOf b ++ v)) =
      uncommented u ++ '/' :: '*' :: dropLineComments false b := by
  -- its own end stands inside the line comment
  have htail : dropLineComments true ('*' :: '/' :: v) = [] := by
    have hnone : ∀ c ∈ '*' :: '/' :: v, c ≠ '\n' := by
      simp only [List.mem_cons]
      rintro c (rfl | rfl | hc)
      · decide
      · decide
      · exact fun heq => hv (heq ▸ hc)
    simpa using dropLineComments_append_of_no_newline hnone []
  have hopen : closeComment? (dropLineComments false b) = none :=
    closeComment?_dropLineComments false hb.no_closer
  have hcomment : uncommented ('/' :: '*' :: (b ++ '*' :: '/' :: v)) =
      '/' :: '*' :: dropLineComments false b := by
    unfold uncommented
    rw [dropLineComments_outside, if_neg (by simp), dropLineComments_outside, if_neg (by simp),
      dropLineComments_append (by simp), hline, htail, List.append_nil,
      dropBlockComments_of_open hopen]
  rw [commentOf_append, h.uncommented_append (by simp) (by simp [dropLineComments_outside]),
    hcomment]

lemma dropLineComments_sublist (inside : Bool) (cs : List Char) :
    (dropLineComments inside cs).Sublist cs := by
  induction cs generalizing inside with
  | nil => simp
  | cons c cs ih =>
    cases inside with
    | true =>
      rw [dropLineComments_inside]
      split
      · rename_i hc
        rw [hc]
        exact (ih false).cons_cons '\n'
      · exact (ih true).cons c
    | false =>
      rw [dropLineComments_outside]
      split
      · exact (ih true).cons c
      · exact (ih false).cons_cons c

/-- A text without slashes and stars at the end is kept, in a comment that is left open or
behind all comments. -/
lemma dropBlockComments_append_plain {t : List Char} (ht : ∀ c ∈ t, c ≠ '/' ∧ c ≠ '*')
    (xs : List Char) : dropBlockComments (xs ++ t) = dropBlockComments xs ++ t := by
  have hstar : ∀ c ∈ t, c ≠ '*' := fun c hc => (ht c hc).2
  by_cases hopen : leftOpen xs = true
  · obtain ⟨before, inside, hinside, hrest⟩ := dropBlockComments_append_of_leftOpen hopen
    -- nothing in the text closes the comment
    have hnone : closeComment? (inside ++ t) = none := by
      cases t with
      | nil => rwa [List.append_nil]
      | cons q zs =>
        obtain ⟨hq, hzs⟩ := List.forall_mem_cons.mp hstar
        have hclosed := closeComment?_append_of_no_star hzs []
        rw [List.append_nil] at hclosed
        rw [closeComment?_append_of_none (ht q List.mem_cons_self).1 hq hinside, hclosed]
        rfl
    have hself := hrest []
    rw [List.append_nil, List.append_nil, dropBlockComments_of_open hinside] at hself
    rw [hrest, dropBlockComments_of_open hnone, hself]
    simp
  · have hhead : t.head? ≠ some '*' := fun h => hstar '*' (List.mem_of_mem_head? h) rfl
    have hblocks := dropBlockComments_append_of_no_slash (fun c hc => (ht c hc).1) []
    rw [List.append_nil, dropBlockComments_nil, List.append_nil] at hblocks
    rw [dropBlockComments_append (by simpa using hopen) fun _ => hhead, hblocks]

/-- Of blanks and semicolons at the end of a text the guard keeps some or none. -/
lemma exists_uncommented_append {t : List Char}
    (ht : ∀ c ∈ t, (c == ';' || Text.isBlank c) = true) (cs : List Char) :
    ∃ t', uncommented (cs ++ t) = uncommented cs ++ t' ∧ ∀ c ∈ t', c ∈ t := by
  have hmarks : ∀ c ∈ t, c ≠ '-' ∧ c ≠ '/' ∧ c ≠ '*' := by
    intro c hc
    have hend := ht c hc
    refine ⟨?_, ?_, ?_⟩
    all_goals
      rintro rfl
      exact absurd hend (by decide)
  have hdash : t.head? ≠ some '-' := fun h => (hmarks '-' (List.mem_of_mem_head? h)).1 rfl
  have hkept : ∀ c ∈ dropLineComments (endsInside false cs) t, c ∈ t :=
    fun c hc => (dropLineComments_sublist _ t).mem hc
  refine ⟨_, ?_, hkept⟩
  unfold uncommented
  rw [dropLineComments_append fun _ _ => hdash,
    dropBlockComments_append_plain fun c hc => (hmarks c (hkept c hc)).2]

end Keeps

/-! ## The two verdicts -/

section Verdicts

variable {u b v : List Char}

/-- A comment keeps what stands before it from being taken off the end. -/
lemma stripEnd_comment (u b v : List Char) :
    stripEnd (u ++ (commentOf b ++ v)) = u ++ (commentOf b ++ stripEnd v) := by
  have hend : stripEnd (commentOf b) = commentOf b :=
    Text.dropEndWhile_eq_self fun c hc => by
      obtain rfl : '/' = c := by simpa [commentOf, List.getLast?_cons] using hc
      decide
  have hne : commentOf b ≠ [] := by simp [commentOf]
  have hcomment : stripEnd (commentOf b ++ v) = commentOf b ++ stripEnd v := by
    rw [stripEnd, Text.dropEndWhile_append, ← stripEnd, ← stripEnd, hend]
    split
    · rename_i hv
      rw [hv, List.append_nil]
    · rfl
  rw [stripEnd, Text.dropEndWhile_append, ← stripEnd, hcomment, if_neg (by simp [hne])]

/-- A space does not. -/
lemma stripEnd_space (u v : List Char) :
    stripEnd (u ++ ' ' :: v) =
      if stripEnd v = [] then stripEnd u else u ++ ' ' :: stripEnd v := by
  have hspace : stripEnd (' ' :: v) = if stripEnd v = [] then [] else ' ' :: stripEnd v := by
    have happend := Text.dropEndWhile_append (p := fun c => c == ';' || Text.isBlank c) [' '] v
    simpa [stripEnd, Text.dropEndWhile, Text.isBlank] using happend
  rw [stripEnd, Text.dropEndWhile_append, ← stripEnd, ← stripEnd, hspace]
  split
  · rw [if_pos rfl]
  · rw [if_neg (by simp)]

/-- With the comment the texts are checked side by side. -/
theorem InNoComment.accepts_comment (h : InNoComment u) (hb : CommentBody b)
    (hline : endsInside false b = false) :
    accepts (u ++ (commentOf b ++ v)) = true ↔
      Clean (Text.spaced (Text.pieces (uncommented u ++ uncommented (stripEnd v)))) := by
  rw [accepts_iff_clean, stripEnd_comment, normalize_eq, h.uncommented_comment hb hline]

/-- With a space they are checked with a space between them. -/
theorem InNoComment.accepts_space (h : InNoComment u) (hsingle : ';' ∉ uncommented u) :
    accepts (u ++ ' ' :: v) = true ↔
      Clean (Text.spaced (Text.pieces (uncommented u ++ ' ' :: uncommented (stripEnd v)))) := by
  rw [accepts_iff_clean, stripEnd_space, normalize_eq]
  split
  · rename_i hv
    -- the end of the first text is reached, where only blanks can stand
    obtain ⟨t, ht, hend⟩ := exists_stripEnd_append u
    obtain ⟨t', hkept, hmem⟩ := exists_uncommented_append hend (stripEnd u)
    have htext : uncommented u = uncommented (stripEnd u) ++ t' := by
      rw [← hkept, ← ht]
    have hblank : ∀ c ∈ t', Text.isBlank c = true := by
      intro c hc
      have hne : c ≠ ';' := by
        rintro rfl
        exact hsingle (htext ▸ List.mem_append_right _ hc)
      simpa [hne] using hend c (hmem c hc)
    have hpieces : Text.pieces (uncommented u) = Text.pieces (uncommented (stripEnd u)) := by
      rw [htext, pieces_append_of_blank hblank]
    have hspace : ∀ c ∈ [' '], Text.isBlank c = true := by decide
    rw [hv, uncommented_nil, pieces_append_of_blank hspace, hpieces]
  · rw [h.uncommented_space]

/-- A comment in which a line comment begins is found open. -/
theorem InNoComment.accepts_dashes (h : InNoComment u) (hb : CommentBody b)
    (hline : endsInside false b = true) (hv : '\n' ∉ v) :
    accepts (u ++ (commentOf b ++ v)) = false := by
  have hv' : '\n' ∉ stripEnd v := by
    obtain ⟨t, ht, -⟩ := exists_stripEnd_append v
    rw [ht] at hv
    exact fun hmem => hv (List.mem_append_left t hmem)
  rw [← Bool.not_eq_true, accepts_iff_clean, stripEnd_comment]
  intro hclean
  refine hclean.not_hasOpener ?_
  rw [h.uncommented_dashes hb hline hv']
  exact ⟨_, _, rfl⟩

end Verdicts

/-! ## What a comment hides -/

/-- A text of word characters only. -/
structure IsWordText (x : List Char) : Prop where
  ne_nil : x ≠ []
  isWord : ∀ c ∈ x, Text.isWord c = true

instance (x : List Char) : Decidable (IsWordText x) :=
  decidable_of_iff (x ≠ [] ∧ ∀ c ∈ x, Text.isWord c = true)
    ⟨fun ⟨hne, hword⟩ => ⟨hne, hword⟩, fun h => ⟨h.ne_nil, h.isWord⟩⟩

/-- Two words that are refused when a space stands between them, while the word that they make
together begins nothing and is not dangerous. -/
structure Hideable (x y : List Char) : Prop where
  left : IsWordText x
  right : IsWordText y
  harmless : ¬ Dangerous (x ++ y)
  no_all : Text.dropWord? "all".toList (x ++ y) = none
  no_select : selectHere (x ++ y) = false
  refused : Dangerous y ∨ anyEnd unionSelectHere (x ++ ' ' :: y) = true

instance (x y : List Char) : Decidable (Hideable x y) :=
  decidable_of_iff (IsWordText x ∧ IsWordText y ∧ ¬ Dangerous (x ++ y) ∧
      Text.dropWord? "all".toList (x ++ y) = none ∧ selectHere (x ++ y) = false ∧
      (Dangerous y ∨ anyEnd unionSelectHere (x ++ ' ' :: y) = true))
    ⟨fun ⟨h₁, h₂, h₃, h₄, h₅, h₆⟩ => ⟨h₁, h₂, h₃, h₄, h₅, h₆⟩,
      fun h => ⟨h.left, h.right, h.harmless, h.no_all, h.no_select, h.refused⟩⟩

/-- `UNION SELECT`, and each dangerous word behind another one. -/
def hiddenWords : List (List Char × List Char) :=
  ("UNION".toList, "SELECT".toList) :: dangerousWords.map fun d => (['x'], d.toList)

lemma hideable_hiddenWords : ∀ p ∈ hiddenWords, Hideable p.1 p.2 := by decide

namespace IsWordText

variable {x y : List Char}

lemma ne_of_mem (h : IsWordText x) {c d : Char} (hc : c ∈ x) (hd : Text.isWord d = false) :
    c ≠ d := by
  rintro rfl
  rw [h.isWord c hc] at hd
  exact absurd hd (by decide)

lemma not_mem (h : IsWordText x) {d : Char} (hd : Text.isWord d = false) : d ∉ x :=
  fun hmem => h.ne_of_mem hmem hd rfl

lemma isBlank_eq_false (h : IsWordText x) : ∀ c ∈ x, Text.isBlank c = false := by
  intro c hc
  by_contra hblank
  have hword := h.isWord c hc
  rw [Text.isWord_eq_false_of_isBlank (by simpa using hblank)] at hword
  exact absurd hword (by decide)

lemma append (hx : IsWordText x) (hy : IsWordText y) : IsWordText (x ++ y) where
  ne_nil := by simp [hx.ne_nil]
  isWord := by
    intro c hc
    exact (List.mem_append.mp hc).elim (hx.isWord c) (hy.isWord c)

lemma words_eq (h : IsWordText x) : Text.words x = [x] :=
  Text.runs_of_forall_not h.ne_nil fun c hc => by simp [h.isWord c hc]

lemma pieces_eq (h : IsWordText x) : Text.pieces x = [x] :=
  Text.runs_of_forall_not h.ne_nil h.isBlank_eq_false

lemma plain (h : IsWordText x) : ∀ c ∈ x, c ≠ '-' ∧ c ≠ '/' :=
  fun _ hc => ⟨h.ne_of_mem hc (by decide), h.ne_of_mem hc (by decide)⟩

/-- On a line of its own nothing is taken out of it. -/
lemma plain_line (h : IsWordText x) : ∀ c ∈ '\n' :: x, c ≠ '-' ∧ c ≠ '/' :=
  List.forall_mem_cons.mpr ⟨by decide, h.plain⟩

/-- The guard keeps it as it is. -/
lemma uncommented_stripEnd (h : IsWordText x) : uncommented (stripEnd x) = x := by
  have hend : stripEnd x = x := by
    refine Text.dropEndWhile_eq_self fun c hc => ?_
    have hmem := List.mem_of_getLast? hc
    simp [h.ne_of_mem hmem (d := ';') (by decide), h.isBlank_eq_false c hmem]
  rw [hend]
  simpa using uncommented_append h.plain []

/-- Where no blank stands there is no `UNION SELECT`. -/
lemma anyEnd_unionSelectHere_eq_false (h : IsWordText x) :
    anyEnd unionSelectHere (' ' :: x) = false := by
  have hhere : ∀ cs : List Char, (∀ c ∈ cs, Text.isBlank c = false) →
      unionSelectHere cs = false := by
    intro cs hcs
    rw [← Bool.not_eq_true, unionSelectHere_iff]
    rintro ⟨rest, hrest, -⟩
    obtain ⟨r, hr, hblanks⟩ := Option.bind_eq_some_iff.mp hrest
    obtain ⟨used, rfl, -⟩ := Text.dropWord?_eq_some_iff.mp hr
    cases r with
    | nil => simp [dropBlanks?] at hblanks
    | cons c r => simp [dropBlanks?, hcs c (by simp)] at hblanks
  have htail : ∀ cs : List Char, (∀ c ∈ cs, Text.isBlank c = false) →
      anyEnd unionSelectHere cs = false := by
    intro cs hcs
    induction cs with
    | nil => rfl
    | cons c cs ih =>
      rw [anyEnd, hhere _ hcs, ih (List.forall_mem_cons.mp hcs).2, Bool.or_false]
  have hspace : unionSelectHere (' ' :: x) = false := by
    rw [← Bool.not_eq_true]
    intro hunion
    exact absurd (unionSelectHere_cons hunion).1 (by decide)
  rw [anyEnd, hspace, htail x h.isBlank_eq_false, Bool.or_false]

end IsWordText

section Hidden

variable {b cs x y : List Char} (h : Clean (normalize cs))
include h

/-- Behind a clean text, on a line of its own, the guard is in no comment. -/
lemma Clean.inNoComment_append_newline (hx : IsWordText x) : InNoComment (cs ++ '\n' :: x) where
  line := by
    rw [endsInside_append_newline]
    exact endsInside_of_no_dash fun c hc => (hx.plain c hc).1
  block := by
    have hslash : ∀ c ∈ x, c ≠ '/' := fun c hc => (hx.plain c hc).2
    rw [← Bool.not_eq_true]
    intro hopen
    have hopener : HasOpener (uncommented (cs ++ '\n' :: x)) := hasOpener_of_leftOpen hopen
    rw [h.uncommented_append_newline hx.plain_line,
      hasOpener_append_cons (by decide) (by decide)] at hopener
    exact hopener.elim h.not_hasOpener (not_hasOpener_of_no_slash hslash)

/-- A word behind the normal form completes nothing if it is neither of the two that could. -/
lemma Clean.anyEnd_unionSelectHere_append_space (hx : IsWordText x)
    (hall : Text.dropWord? "all".toList x = none) (hselect : selectHere x = false) :
    anyEnd unionSelectHere (normalize cs ++ ' ' :: x) = false := by
  have hne : normalize cs ≠ [] := by
    intro hnil
    have hreads := h.reads
    rw [hnil] at hreads
    exact absurd hreads (by decide)
  obtain ⟨c, hc⟩ := Option.ne_none_iff_exists'.mp (mt List.getLast?_eq_none_iff.mp hne)
  -- a normal form ends with no blank, so the space is the first one behind its last word
  have hblank : Text.isBlank c = false := isBlank_getLast?_spaced_pieces _ c hc
  have hsealed : Sealed c (' ' :: x) := by
    obtain ⟨d, ds, rfl⟩ := List.exists_cons_of_ne_nil hx.ne_nil
    exact sealed_space (hx.isBlank_eq_false d List.mem_cons_self) fun _ => ⟨hall, hselect⟩
  rw [anyEnd_unionSelectHere_append hc hblank hsealed, h.no_union,
    hx.anyEnd_unionSelectHere_eq_false, Bool.false_or]

/-- The normal form of a clean text stays clean with a harmless word behind it. -/
lemma Clean.append_word (hx : IsWordText x) (hharmless : ¬ Dangerous x)
    (hall : Text.dropWord? "all".toList x = none) (hselect : selectHere x = false) :
    Clean (normalize cs ++ ' ' :: x) where
  harmless := by
    refine harmless_append_space h.harmless fun w hw => ?_
    rw [hx.words_eq, List.mem_singleton] at hw
    rwa [hw]
  reads := isReadStatement_append h.reads _
  balanced := by
    have hnone : ∀ c, c ≠ ' ' → Text.isWord c = false → (' ' :: x).count c = 0 := by
      intro c hspace hc
      rw [List.count_cons_of_ne hspace.symm]
      exact List.count_eq_zero.mpr (hx.not_mem hc)
    rw [List.count_append, List.count_append, h.balanced, hnone '(' (by decide) (by decide),
      hnone ')' (by decide) (by decide)]
  single := by
    simp [h.single, hx.not_mem (d := ';') (by decide)]
  closed := by
    rw [hasOpener_append_cons (by decide) (by decide), not_or]
    exact ⟨h.closed, not_hasOpener_of_no_slash fun c hc => (hx.plain c hc).2⟩
  no_union := h.anyEnd_unionSelectHere_append_space hx hall hselect

/-- With a comment between them the two words are accepted behind a clean text. -/
theorem Clean.accepts_hidden (hxy : Hideable x y) (hb : CommentBody b)
    (hline : endsInside false b = false) :
    accepts (cs ++ '\n' :: x ++ (commentOf b ++ y)) = true := by
  have hword := hxy.left.append hxy.right
  have hplace := h.inNoComment_append_newline hxy.left
  have hnormal : Text.spaced (Text.pieces (uncommented cs ++ '\n' :: (x ++ y))) =
      normalize cs ++ ' ' :: (x ++ y) := by
    rw [Text.pieces_append_cons (by decide), hword.pieces_eq,
      Text.spaced_append h.pieces_ne_nil (by simp), Text.spaced_singleton, normalize_eq]
  rw [hplace.accepts_comment hb hline, hxy.right.uncommented_stripEnd,
    h.uncommented_append_newline hxy.left.plain_line, List.append_assoc, List.cons_append, hnormal]
  exact h.append_word hword hxy.harmless hxy.no_all hxy.no_select

/-- With a space between them they are refused. -/
theorem Clean.not_accepts_shown (hxy : Hideable x y) :
    accepts (cs ++ '\n' :: x ++ ' ' :: y) = false := by
  have hplace := h.inNoComment_append_newline hxy.left
  have hkept := h.uncommented_append_newline hxy.left.plain_line
  have hsingle : ';' ∉ uncommented (cs ++ '\n' :: x) := by
    rw [hkept]
    simp [h.semicolon_not_mem, hxy.left.not_mem (d := ';') (by decide)]
  have hnormal : Text.spaced (Text.pieces (uncommented cs ++ '\n' :: (x ++ ' ' :: y))) =
      normalize cs ++ ' ' :: (x ++ ' ' :: y) := by
    have hpieces : Text.pieces (x ++ ' ' :: y) = [x, y] := by
      rw [Text.pieces_append_cons (by decide), hxy.left.pieces_eq, hxy.right.pieces_eq]
      rfl
    rw [Text.pieces_append_cons (by decide), hpieces,
      Text.spaced_append h.pieces_ne_nil (by simp), Text.spaced_cons_cons, Text.spaced_singleton,
      normalize_eq]
  rw [← Bool.not_eq_true, hplace.accepts_space hsingle, hxy.right.uncommented_stripEnd, hkept,
    List.append_assoc, List.cons_append, hnormal]
  intro hclean
  -- apart, the second word is dangerous, or the two are a `UNION SELECT`
  rcases hxy.refused with hdangerous | hunion
  · refine hclean.harmless y ?_ hdangerous
    rw [Text.words_append_cons (by decide), Text.words_append_cons (by decide),
      hxy.right.words_eq]
    simp
  · have hall := anyEnd_append (normalize cs ++ [' ']) hunion
    rw [← List.append_cons, hclean.no_union] at hall
    exact absurd hall (by decide)

end Hidden

/-! ## A comment against a space -/

/-- What is known of the guard's answers to two texts with a comment between them and with a
space between them. -/
structure CommentGap (u b v : List Char) : Prop where
  /-- If the guard is in step with the texts and no comment is left open in the first one, it
  is in no comment where the comment begins. -/
  place : InStep (tokens (u ++ v)) → ¬ HasOpener (uncommented u) → InNoComment u
  /-- With the comment it checks what it keeps of the texts side by side. -/
  comment : InNoComment u → endsInside false b = false →
    (accepts (u ++ (commentOf b ++ v)) = true ↔
      Clean (Text.spaced (Text.pieces (uncommented u ++ uncommented (stripEnd v)))))
  /-- With a space it checks this with a space between. -/
  space : InNoComment u → ';' ∉ uncommented u →
    (accepts (u ++ ' ' :: v) = true ↔
      Clean (Text.spaced (Text.pieces (uncommented u ++ ' ' :: uncommented (stripEnd v)))))
  /-- If no word goes across the seam, the comment can only lead to a refusal: of a text with a
  semicolon at the end of the first one, of a first word without a blank, and of what looks
  like the beginning of a comment. -/
  agree : InNoComment u → endsInside false b = false →
    ¬ Joined (uncommented u) (uncommented (stripEnd v)) →
      (accepts (u ++ (commentOf b ++ v)) = true ↔
        accepts (u ++ ' ' :: v) = true ∧ ';' ∉ uncommented u ∧
          ¬ Clash (uncommented u) (uncommented (stripEnd v)))
  /-- With two dashes inside, the comment leads to a refusal on the last line. -/
  dashes : InNoComment u → endsInside false b = true → '\n' ∉ v →
    accepts (u ++ (commentOf b ++ v)) = false
  /-- If the first text is accepted on its own, the comment hides a `UNION SELECT` behind it, and
  every dangerous word. -/
  hides : accepts u = true → endsInside false b = false → ∀ p ∈ hiddenWords,
    accepts (stripTerminator u ++ '\n' :: p.1 ++ (commentOf b ++ p.2)) = true ∧
      accepts (stripTerminator u ++ '\n' :: p.1 ++ ' ' :: p.2) = false

/-- A comment that is written outside of literals, quoted identifiers and comments does not
count as a space; the two answers are told by what the guard keeps. -/
theorem comment_gap {u b v : List Char} (hcut : Outside (tokens (u ++ v)) u.length)
    (hb : CommentBody b) : CommentGap u b v where
  place := by
    intro hstep hclosed
    refine ⟨endsInside_eq_false_of_outside (u ++ v) u v rfl hstep hcut, ?_⟩
    -- a comment that is left open would be kept, with its beginning
    rw [← Bool.not_eq_true]
    exact fun hopen => hclosed (hasOpener_of_leftOpen hopen)
  comment := fun hplace hline => hplace.accepts_comment hb hline
  space := fun hplace hsingle => hplace.accepts_space hsingle
  agree := by
    intro hplace hline hjoined
    rw [hplace.accepts_comment hb hline, clean_pieces_append_iff hjoined]
    constructor
    · rintro ⟨hclean, hclash⟩
      -- a clean text has no semicolon, so the other answer is known as well
      have hsingle : ';' ∉ uncommented u := by
        intro hmem
        refine hclean.single ?_
        rw [← List.count_pos_iff, Text.count_spaced_pieces (by decide), List.count_pos_iff]
        exact List.mem_append_left _ hmem
      exact ⟨(hplace.accepts_space hsingle).mpr hclean, hsingle, hclash⟩
    · rintro ⟨hspace, hsingle, hclash⟩
      exact ⟨(hplace.accepts_space hsingle).mp hspace, hclash⟩
  dashes := fun hplace hline hv => hplace.accepts_dashes hb hline hv
  hides := by
    intro haccepts hline p hp
    have hclean := clean_of_accepts haccepts
    have hpair := hideable_hiddenWords p hp
    exact ⟨hclean.accepts_hidden hpair hb hline, hclean.not_accepts_shown hpair⟩

/-- The two texts that a comment between them makes one word of. -/
theorem comment_gap_unionQuery :
    Outside (tokens ("SELECT a FROM t UNION".toList ++ "SELECT b FROM u".toList))
        "SELECT a FROM t UNION".toList.length ∧
      CommentBody " all ".toList ∧
      CommentGap "SELECT a FROM t UNION".toList " all ".toList "SELECT b FROM u".toList := by
  have hcut : Outside (tokens ("SELECT a FROM t UNION".toList ++ "SELECT b FROM u".toList))
      "SELECT a FROM t UNION".toList.length := by decide +kernel
  have hb : CommentBody " all ".toList := by decide
  exact ⟨hcut, hb, comment_gap hcut hb⟩

/-- Two texts, and the inside of a comment between them. -/
structure Gap where
  before : String
  body : String
  behind : String

/-- Places at which a comment can stand. -/
def Gap.Fair (g : Gap) : Prop :=
  Outside (tokens (g.before.toList ++ g.behind.toList)) g.before.toList.length ∧
    CommentBody g.body.toList

instance (g : Gap) : Decidable g.Fair :=
  inferInstanceAs (Decidable (Outside _ _ ∧ CommentBody _))

/-- The guard's answers with the comment and with a space. -/
def Gap.answers (g : Gap) : Bool × Bool :=
  (accepts (g.before.toList ++ (commentOf g.body.toList ++ g.behind.toList)),
    accepts (g.before.toList ++ ' ' :: g.behind.toList))

/-- Queries that are refused with a space. -/
def hidingGaps : List Gap :=
  [⟨"SELECT a FROM t UNION", " all ", "SELECT b FROM u"⟩, ⟨"SELECT x", "", "drop FROM t"⟩,
    ⟨"SELECT 1 /* x", "", ""⟩]

/-- Queries that are accepted with a space. -/
def harmlessGaps : List Gap :=
  [⟨"SELECT", "", "* FROM t"⟩, ⟨"SELECT cre", "", "ate FROM t"⟩, ⟨"SELECT 1;", "", ""⟩,
    ⟨"SELECT 8 /", "", "* FROM t"⟩, ⟨"SELECT 1", " -- ", ""⟩]

/-- A comment hides what is refused with a space, and is refused where a space is accepted. -/
theorem comment_not_space :
    (∀ g ∈ hidingGaps, g.Fair ∧ g.answers = (true, false)) ∧
      ∀ g ∈ harmlessGaps, g.Fair ∧ g.answers = (false, true) := by
  decide +kernel

end RevenueDesk.Sql
