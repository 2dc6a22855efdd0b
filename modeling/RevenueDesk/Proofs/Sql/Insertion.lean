/-
# What can be written where the guard is out of step

Behind the first token that makes the guard lose its place, the guard takes what follows for
a comment, while the database runs it.  So whatever is written there is accepted and exposed
(`exists_insertion`): being in step is just what keeps the guard from being passed by.

The text that is written there is an *insertion*: one that leaves everything around it as it
is.
-/
import RevenueDesk.Proofs.Sql.Exposure
import RevenueDesk.Proofs.Sql.Neutral

namespace RevenueDesk.Sql

/-- The characters that tokens, comments and lines begin or end with. -/
def marks : List Char := ['\'', '"', '-', '/', '*', ':', '\n']

/-- A text of which every character is a token of its own, wherever it is written, and that
does not end with anything that is taken from the end of a query. -/
structure Insertion (xs : List Char) : Prop where
  ne_nil : xs ≠ []
  plain : ∀ c ∈ xs, c ∉ marks
  last : ∀ c, xs.getLast? = some c → c ≠ ';' ∧ Text.isBlank c = false

instance (xs : List Char) : Decidable (Insertion xs) :=
  decidable_of_iff (xs ≠ [] ∧ (∀ c ∈ xs, c ∉ marks) ∧
      ∀ c ∈ xs.getLast?.toList, c ≠ ';' ∧ Text.isBlank c = false)
    ⟨fun ⟨hne, hplain, hlast⟩ => ⟨hne, hplain, fun c hc => hlast c (by simp [hc])⟩,
      fun h => ⟨h.ne_nil, h.plain, fun c hc => h.last c (by simpa using hc)⟩⟩

example : Insertion ";DROP TABLE revenue".toList := by decide

variable {xs : List Char}

namespace Insertion

lemma ne_of_mem {c d : Char} (h : Insertion xs) (hc : c ∈ xs)
    (hd : d ∈ marks) : c ≠ d := by
  rintro rfl
  exact h.plain c hc hd

/-- An insertion closes nothing. -/
lemma neutral (h : Insertion xs) : Neutral xs where
  ne_nil := h.ne_nil
  no_quote := fun _ hc => ⟨h.ne_of_mem hc (by decide), h.ne_of_mem hc (by decide)⟩
  no_star := fun _ hc => h.ne_of_mem hc (by decide)
  head?_ne := by
    intro hhead
    exact h.ne_of_mem (List.mem_of_mem_head? hhead) (by decide) rfl

/-- It is exposed as a whole. -/
lemma exposed_tokens (h : Insertion xs) (ys : List Char) :
    exposed (tokens (xs ++ ys)) = xs ++ exposed (tokens ys) :=
  exposed_tokens_append (fun _ hc hstart => h.plain _ hc (by
    revert hstart
    simp only [tokenStarts, marks, List.mem_cons, List.not_mem_nil, or_false]
    tauto)) ys

end Insertion

/-! ## The guard behind a token -/

/-- A comment that is not closed in the first text is closed in the second one or not at
all. -/
lemma closeComment?_append_of_none {q : Char} (hslash : q ≠ '/') (hstar : q ≠ '*')
    {ys : List Char} (h : closeComment? ys = none) (zs : List Char) :
    closeComment? (ys ++ q :: zs) =
      (closeComment? zs).map fun (inner, rest) => (ys ++ q :: inner, rest) := by
  induction ys with
  | nil => rw [List.nil_append, closeComment?_cons, if_neg fun hc => hstar hc.1]; rfl
  | cons y ys ih =>
    rw [closeComment?_cons] at h
    split at h
    · simp at h
    · rename_i hclose
      have hne : ¬ (y = '*' ∧ (ys ++ q :: zs).head? = some '/') := by
        rintro ⟨rfl, hhead⟩
        cases ys with
        | nil => exact hslash (by simpa using hhead)
        | cons d ds => exact hclose ⟨rfl, hhead⟩
      rw [List.cons_append, closeComment?_cons, if_neg hne, ih (by simpa using h), Option.map_map]
      rfl

/-- Inside a line comment an insertion is not seen. -/
lemma dropLineComments_insert (hxs : Insertion xs) (zs : List Char) :
    dropLineComments true (xs ++ zs) = dropLineComments true zs :=
  dropLineComments_append_of_no_newline (fun _ hc => hxs.ne_of_mem hc (by decide)) zs

lemma uncommented_quoted_insert {q : Char} (hq : q = '\'' ∨ q = '"') (hxs : Insertion xs)
    {inner zs : List Char} (hopen : ¬ HasOpener (uncommented (q :: (inner ++ q :: zs))))
    (hout : ¬ (endsInside false inner = false ∧ leftOpen (dropLineComments false inner) = false)) :
    uncommented (q :: (inner ++ q :: (xs ++ zs))) = uncommented (q :: (inner ++ q :: zs)) := by
  obtain ⟨hdash, hnewline, hslash, hstar⟩ := quote_ne hq
  have hlines : ∀ ds, dropLineComments false (inner ++ q :: ds) =
      dropLineComments false inner ++ dropLineComments (endsInside false inner) (q :: ds) :=
    fun ds => dropLineComments_append (by simp [hdash])
  rw [uncommented_quote hq] at hopen
  rw [uncommented_quote hq, uncommented_quote hq]
  congr 1
  by_cases hline : endsInside false inner = false
  · -- the guard is inside a block comment
    have hblock : leftOpen (dropLineComments false inner) = true := by simpa [hline] using hout
    obtain ⟨before, inside, hinside, hrest⟩ := dropBlockComments_append_of_leftOpen hblock
    have hread : ∀ ds, uncommented (inner ++ q :: ds) =
        before ++ dropBlockComments ('/' :: '*' :: (inside ++ q :: dropLineComments false ds)) := by
      intro ds
      unfold uncommented
      rw [hlines, hline, dropLineComments_outside, if_neg fun h => hdash h.1, hrest]
    have hplain : dropLineComments false (xs ++ zs) = xs ++ dropLineComments false zs :=
      dropLineComments_append_of_no_dash (fun _ hc => hxs.ne_of_mem hc (by decide)) zs
    have hnostar : closeComment? (xs ++ dropLineComments false zs) =
        (closeComment? (dropLineComments false zs)).map fun (i, r) => (xs ++ i, r) :=
      closeComment?_append_of_no_star (fun _ hc => hxs.ne_of_mem hc (by decide)) _
    rcases hclose : closeComment? (dropLineComments false zs) with _ | ⟨i, r⟩
    · -- it would be left open
      refine absurd ?_ hopen
      have hnone : closeComment? (inside ++ q :: dropLineComments false zs) = none := by
        rw [closeComment?_append_of_none hslash hstar hinside, hclose]
        rfl
      rw [hread, dropBlockComments_of_open hnone]
      exact ⟨q :: before, _, rfl⟩
    · have hbefore : closeComment? (inside ++ q :: dropLineComments false zs) =
          some (inside ++ q :: i, r) := by
        rw [closeComment?_append_of_none hslash hstar hinside, hclose]
        rfl
      have hafter : closeComment? (inside ++ q :: (xs ++ dropLineComments false zs)) =
          some (inside ++ q :: (xs ++ i), r) := by
        rw [closeComment?_append_of_none hslash hstar hinside, hnostar, hclose]
        rfl
      rw [hread, hread, hplain, dropBlockComments_of_closed hbefore,
        dropBlockComments_of_closed hafter]
  · -- the guard is inside a line comment
    have hline' : endsInside false inner = true := by simpa using hline
    unfold uncommented
    rw [hlines, hlines, hline', dropLineComments_inside, dropLineComments_inside,
      if_neg hnewline, if_neg hnewline, dropLineComments_insert hxs]

/-- Behind a token that makes the guard lose its place an insertion is not seen. -/
lemma Reads.uncommented_insert {cs zs : List Char} {t : Token} (h : Reads cs t zs)
    (hxs : Insertion xs) (ht : ¬ t.Settled) (hopen : ¬ HasOpener (uncommented cs)) :
    uncommented (t.text ++ (xs ++ zs)) = uncommented cs := by
  rw [← h.text_append] at hopen ⊢
  cases t with
  | literal inner =>
    have htext : ∀ ds, (Token.literal inner).text ++ ds = '\'' :: (inner ++ '\'' :: ds) := by
      simp [Token.text]
    rw [htext] at hopen ⊢
    rw [htext]
    exact uncommented_quoted_insert (Or.inl rfl) hxs hopen ht
  | identifier inner =>
    have htext : ∀ ds, (Token.identifier inner).text ++ ds = '"' :: (inner ++ '"' :: ds) := by
      simp [Token.text]
    rw [htext] at hopen ⊢
    rw [htext]
    exact uncommented_quoted_insert (Or.inr rfl) hxs hopen ht
  | blockComment inner =>
    have hline : endsInside false inner = true := by simpa [Token.Settled] using ht
    have hlines : ∀ ds, dropLineComments false ((Token.blockComment inner).text ++ ds) =
        '/' :: '*' :: (dropLineComments false inner ++ dropLineComments true ds) := by
      intro ds
      have htext : (Token.blockComment inner).text ++ ds =
          '/' :: '*' :: (inner ++ '*' :: '/' :: ds) := by simp [Token.text]
      rw [htext, dropLineComments_outside, if_neg (by simp), dropLineComments_outside,
        if_neg (by simp), dropLineComments_append (by simp), hline, dropLineComments_inside,
        if_neg (by simp), dropLineComments_inside, if_neg (by simp)]
    unfold uncommented
    rw [hlines, hlines, dropLineComments_insert hxs]
  | lineComment inner => exact absurd trivial ht
  | cast => exact absurd trivial ht
  | reference name => exact absurd trivial ht
  | plain c => exact absurd trivial ht

/-! ## Where the guard loses its place -/

/-- The first token that is not settled. -/
lemma exists_first_unsettled {ts : List Token} (h : ¬ InStep ts) :
    ∃ us t vs, ts = us ++ t :: vs ∧ InStep us ∧ ¬ t.Settled := by
  induction ts with
  | nil => exact absurd (by simp [InStep]) h
  | cons t ts ih =>
    by_cases ht : t.Settled
    · have hrest : ¬ InStep ts := fun hts => h (List.forall_mem_cons.mpr ⟨ht, hts⟩)
      obtain ⟨us, u, vs, rfl, hus, hu⟩ := ih hrest
      exact ⟨t :: us, u, vs, rfl, List.forall_mem_cons.mpr ⟨ht, hus⟩, hu⟩
    · exact ⟨[], t, ts, rfl, by simp [InStep], ht⟩

lemma delimited_of_not_settled {t : Token} (h : ¬ t.Settled) : t.Delimited := by
  cases t with
  | literal inner => trivial
  | identifier inner => trivial
  | blockComment inner => trivial
  | lineComment inner => exact absurd trivial h
  | cast => exact absurd trivial h
  | reference name => exact absurd trivial h
  | plain c => exact absurd trivial h

/-- If the guard is out of step with a text in which it finds nothing, then there is a place
where it does not see what is written there, while it is exposed. -/
theorem exists_insertion {cs : List Char} (h : Clean (normalize cs))
    (hout : ¬ InStep (tokens cs)) :
    ∃ before behind, cs = before ++ behind ∧ before ≠ [] ∧ ∀ xs, Insertion xs →
      normalize (before ++ (xs ++ behind)) = normalize cs ∧
        xs <:+: exposed (tokens (before ++ (xs ++ behind))) := by
  obtain ⟨us, t, vs, hts, hus, ht⟩ := exists_first_unsettled hout
  have hall := readsAll_tokens cs
  rw [hts, List.append_cons] at hall
  obtain ⟨behind, hbefore, -⟩ := hall.exists_of_append
  obtain ⟨mid, hmid, htoken⟩ := hbefore.exists_of_append
  have hread : Reads mid t behind := by
    cases htoken with
    | cons hread hnil =>
      cases hnil with
      | nil => exact hread
  refine ⟨(us ++ [t]).flatMap Token.text, behind, hbefore.text_append.symm,
    by simp [t.text_ne_nil], fun xs hxs => ?_⟩
  have hinsert := hbefore.insert hxs.neutral (delimited_of_not_settled ht)
  constructor
  · -- the guard goes along with the tokens up to the one at which it loses its place
    obtain ⟨mid', hmid', htoken'⟩ := hinsert.exists_of_append
    have hmid'_eq : mid' = t.text ++ (xs ++ behind) := by
      simpa using htoken'.text_append.symm
    have hopen : ¬ HasOpener (uncommented mid) := by
      intro hopener
      refine h.not_hasOpener (hopener.of_isInfix ?_)
      rw [hmid.uncommented_eq hus]
      exact (List.suffix_append _ _).isInfix
    rw [normalize_eq, normalize_eq, hmid'.uncommented_eq hus, hmid.uncommented_eq hus, hmid'_eq,
      hread.uncommented_insert hxs ht hopen]
  · rw [hinsert.tokens_eq, exposed, List.flatMap_append]
    have hexposed := hxs.exposed_tokens behind
    rw [exposed] at hexposed
    rw [hexposed, ← List.append_assoc]
    exact ⟨_, _, rfl⟩

/-! ## Queries that are accepted -/

/-- What is known of the exposed part of a query that is accepted. -/
structure Exposure (cs : List Char) : Prop where
  /-- It is safe exactly if the guard has seen every dangerous word and every semicolon. -/
  safe_iff : Safe (exposed (tokens cs)) ↔
    (∀ w ∈ Text.words (exposed (tokens cs)), Dangerous w → w ∈ Text.words (uncommented cs)) ∧
      (';' ∈ exposed (tokens cs) → ';' ∈ uncommented cs)
  /-- A guard that is in step has seen every semicolon. -/
  single_of_inStep : InStep (tokens cs) → ';' ∉ exposed (tokens cs)
  /-- If it joins no words besides, it has seen everything. -/
  safe_of_inStep : InStep (tokens cs) → Apart [] (tokens cs) → Safe (exposed (tokens cs))
  /-- If it is out of step, there is a place where anything can be written: the query is
  still accepted, and what is written is exposed. -/
  insertion_of_not_inStep : ¬ InStep (tokens cs) →
    ∃ before behind, cs = before ++ behind ∧ ∀ xs, Insertion xs →
      accepts (before ++ (xs ++ behind)) = true ∧
        xs <:+: exposed (tokens (stripTerminator (before ++ (xs ++ behind))))

/-- A query that is accepted exposes nothing dangerous if the guard is in step with it and
joins no words; if the guard is out of step, anything can be exposed. -/
theorem exposure_of_accepts {sql : List Char} (h : accepts sql = true) :
    Exposure (stripTerminator sql) where
  safe_iff := safe_exposed_iff (clean_of_accepts h)
  single_of_inStep := semicolon_not_exposed (clean_of_accepts h)
  safe_of_inStep := safe_exposed (clean_of_accepts h)
  insertion_of_not_inStep := by
    intro hout
    have hclean := clean_of_accepts h
    obtain ⟨before, behind, htext, hne, hinsert⟩ := exists_insertion hclean hout
    refine ⟨before, behind, htext, fun xs hxs => ?_⟩
    obtain ⟨hnormal, hexposed⟩ := hinsert xs hxs
    -- the insertion changes neither the first character nor what may stand at the end
    have hstripped : Stripped (before ++ (xs ++ behind)) := by
      have hsame : Stripped (before ++ behind) := htext ▸ stripped_stripTerminator sql
      refine hsame.append hne (by simp [hxs.ne_nil]) fun c hc => ?_
      by_cases hbehind : behind = []
      · rw [hbehind, List.append_nil] at hc
        exact hxs.last c hc
      · rw [List.getLast?_append_of_ne_nil _ hbehind] at hc
        refine hsame.last_ok c ?_
        rw [List.getLast?_append_of_ne_nil _ hbehind, hc]
    rw [hstripped.stripTerminator_eq]
    exact ⟨hstripped.accepts (hnormal ▸ hclean), hexposed⟩

/-- A query with the mark of a comment inside a literal. -/
def hidingQuery : String := "SELECT '--';DROP TABLE revenue"

theorem exposure_of_accepts_hidingQuery :
    accepts hidingQuery.toList = true ∧ Exposure (stripTerminator hidingQuery.toList) := by
  have haccepts : accepts hidingQuery.toList = true := by decide +kernel
  exact ⟨haccepts, exposure_of_accepts haccepts⟩

/-- Queries with the mark of a comment inside quotes or inside another comment. -/
def hidingQueries : List String :=
  [hidingQuery, "SELECT \"--\";DROP TABLE revenue",
    "SELECT '/*';DROP TABLE revenue;SELECT '*/'", "SELECT 1 /* -- */;DROP TABLE revenue /*\n*/"]

/-- A query with a comment between two words. -/
def joiningQuery : String := "SELECT x/**/drop FROM revenue"

/-- Being in step and joining no words are both needed. -/
theorem accepted_not_safe :
    (∀ sql ∈ hidingQueries, accepts sql.toList = true ∧
      ¬ Safe (exposed (tokens (stripTerminator sql.toList)))) ∧
    accepts joiningQuery.toList = true ∧
      InStep (tokens (stripTerminator joiningQuery.toList)) ∧
      ¬ Safe (exposed (tokens (stripTerminator joiningQuery.toList))) := by
  decide +kernel

end RevenueDesk.Sql
