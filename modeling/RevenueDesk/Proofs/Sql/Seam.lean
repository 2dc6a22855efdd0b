/-
# With and without a space

Two texts written side by side, with a space between them and without one.  The guard finds
the same in both if no word goes across the seam, but for two things: the word that a query
begins with needs a blank behind it, and a slash and a star open a comment.

* `unionSelectHere_append`: no `UNION SELECT` goes across a seam that separates words;
* `clean_append_iff`: when a text is clean that is put together without a space;
* `clean_pieces_append_iff`: the same before the blanks are put together.
-/
import RevenueDesk.Proofs.Sql.Exposure
import RevenueDesk.Proofs.Sql.Nesting

namespace RevenueDesk.Sql

/-! ## Reading words up to a seam -/

/-- What folds onto a letter is part of a word. -/
lemma isWord_of_foldLetter {c k : Char} (hk : Text.isSmall k = true) (h : Text.foldLetter c = k) :
    Text.isWord c = true := by
  have hascii : ∀ d, Text.isAsciiWord d = true → Text.isWord d = true := by
    intro d hd
    have hle := (Text.toNat_of_isAsciiWord hd).2
    have hlt : d.val < 0x80 := by
      rw [UInt32.lt_iff_toNat_lt, Char.toNat_val]
      exact Nat.lt_of_le_of_lt hle (by decide)
    rw [Text.isWord, if_pos hlt, hd]
  unfold Text.foldLetter at h
  split at h
  · rename_i hcapital
    refine hascii c ?_
    rw [Text.isCapital] at hcapital
    simp [Text.isAsciiWord, hcapital]
  · split at h
    · rename_i hlong
      rw [beq_iff_eq.mp hlong]
      decide +kernel
    · split at h
      · rename_i hkelvin
        -- the table is long, so the block is named
        rw [beq_iff_eq.mp hkelvin, Text.isWord, if_neg (by decide), ← Array.any_toList,
          List.any_eq_true]
        exact ⟨(0x212A, 0x212D), by decide +kernel, by decide⟩
      · refine hascii c ?_
        rw [h, Text.isAsciiWord]
        rw [Text.isSmall] at hk
        simp [hk]

/-- The words that are looked for at the beginning of a text. -/
def IsSmallWord (word : List Char) : Prop := ∀ k ∈ word, Text.isSmall k = true

instance : DecidablePred IsSmallWord := fun word =>
  inferInstanceAs (Decidable (∀ k ∈ word, Text.isSmall k = true))

/-- What stands behind `c`: it does not go on with a word that `c` is the end of, and behind
its first blanks stands neither `ALL` nor `SELECT`. -/
structure Sealed (c : Char) (z : List Char) : Prop where
  apart : Text.isWord c = true → ∀ d ∈ z.head?, Text.isWord d = false
  blocked : Text.isWord c = true → ∀ z', dropBlanks? z = some z' →
    Text.dropWord? "all".toList z' = none ∧ selectHere z' = false

/-- A space goes on with no word, so only what stands behind it counts. -/
lemma sealed_space {c d : Char} {ds : List Char} (hd : Text.isBlank d = false)
    (h : Text.isWord c = true →
      Text.dropWord? "all".toList (d :: ds) = none ∧ selectHere (d :: ds) = false) :
    Sealed c (' ' :: d :: ds) where
  apart := by
    intro _ d' hd'
    obtain rfl : ' ' = d' := by simpa using hd'
    decide
  blocked := by
    intro hcw z' hz'
    have hspace : Text.isBlank ' ' = true := by decide
    obtain rfl : d :: ds = z' := by simpa [dropBlanks?, hspace, hd] using hz'
    exact h hcw

section Words

variable {c : Char} {e z word : List Char}

/-- A word is read up to the seam or not at all. -/
lemma dropWord?_append (hword : IsSmallWord word) (he : e.getLast? = some c)
    (hz : Text.isWord c = true → ∀ d ∈ z.head?, Text.isWord d = false) :
    Text.dropWord? word (e ++ z) = (Text.dropWord? word e).map (· ++ z) := by
  induction word generalizing e with
  | nil => rfl
  | cons k ks ih =>
    obtain ⟨hk, hks⟩ := List.forall_mem_cons.mp hword
    cases e with
    | nil => simp at he
    | cons f fs =>
      rw [List.cons_append, Text.dropWord?, Text.dropWord?]
      split
      · rename_i hfold
        rcases List.eq_nil_or_concat fs with rfl | ⟨gs, g, rfl⟩
        · -- the last character before the seam is part of the word
          obtain rfl : f = c := by simpa using he
          have hf := isWord_of_foldLetter hk (beq_iff_eq.mp hfold)
          cases ks with
          | nil => rfl
          | cons k' ks =>
            cases z with
            | nil => rfl
            | cons d ds =>
              have hd : Text.foldLetter d ≠ k' := by
                intro hfold'
                have hword' := isWord_of_foldLetter (hks k' List.mem_cons_self) hfold'
                rw [hz hf d rfl] at hword'
                exact absurd hword' (by decide)
              simp [Text.dropWord?, hd]
        · refine ih hks ?_
          rwa [List.getLast?_cons_of_ne_nil (by simp)] at he
      · rfl

lemma dropWhile_append_cons {p : Char → Bool} (hc : p c = false) (xs ys : List Char) :
    (xs ++ c :: ys).dropWhile p = xs.dropWhile p ++ c :: ys := by
  induction xs with
  | nil => simp [hc]
  | cons x xs ih =>
    by_cases hx : p x = true
    · simpa [hx] using ih
    · simp [hx]

/-- Blanks are passed over up to the seam if something stands between them and the seam. -/
lemma dropBlanks?_append (he : e.getLast? = some c) (hc : Text.isBlank c = false)
    (z : List Char) :
    dropBlanks? (e ++ z) = (dropBlanks? e).map (· ++ z) ∧
      ∀ rest, dropBlanks? e = some rest → rest.getLast? = some c := by
  obtain ⟨gs, rfl⟩ := List.getLast?_eq_some_iff.mp he
  cases gs with
  | nil => simp [dropBlanks?, hc]
  | cons g gs =>
    simp only [List.cons_append, List.append_assoc, List.nil_append, dropBlanks?,
      dropWhile_append_cons hc]
    split
    · refine ⟨by simp, fun rest hrest => ?_⟩
      obtain rfl := Option.some.inj hrest
      simp
    · simp

/-- The character before the seam is part of a word that is read up to the seam. -/
lemma isWord_of_dropWord?_eq_nil (hword : IsSmallWord word) (he : e.getLast? = some c)
    (h : Text.dropWord? word e = some []) : Text.isWord c = true := by
  obtain ⟨used, hused, rfl⟩ := Text.dropWord?_eq_some_iff.mp h
  rw [List.append_nil] at hused
  have hmem : c ∈ used := hused ▸ List.mem_of_getLast? he
  exact isWord_of_foldLetter (hword _ (List.mem_map_of_mem hmem)) rfl

/-- A word and blanks behind it are read before the seam, or the blanks stand behind it. -/
lemma dropWord?_dropBlanks?_append (hword : IsSmallWord word) (he : e.getLast? = some c)
    (hc : Text.isBlank c = false) (hz : Sealed c z) {rest : List Char} :
    (Text.dropWord? word (e ++ z)).bind dropBlanks? = some rest ↔
      (∃ rest₀, (Text.dropWord? word e).bind dropBlanks? = some rest₀ ∧ rest = rest₀ ++ z) ∨
        Text.dropWord? word e = some [] ∧ dropBlanks? z = some rest := by
  rw [dropWord?_append hword he hz.apart]
  rcases hdrop : Text.dropWord? word e with _ | r
  · simp
  · cases r with
    | nil => simp [dropBlanks?]
    | cons d ds =>
      obtain ⟨used, hused, -⟩ := Text.dropWord?_eq_some_iff.mp hdrop
      have hlast : (d :: ds).getLast? = some c := by
        rw [hused, List.getLast?_append_of_ne_nil _ (List.cons_ne_nil d ds)] at he
        exact he
      have hblanks := (dropBlanks?_append hlast hc z).1
      simp only [Option.map_some, Option.bind_some, hblanks, Option.map_eq_some_iff]
      simp [eq_comm]

/-- What is behind the blanks goes on to the seam. -/
lemma getLast?_of_dropWord?_dropBlanks? (he : e.getLast? = some c) (hc : Text.isBlank c = false)
    {rest : List Char} (h : (Text.dropWord? word e).bind dropBlanks? = some rest) :
    rest.getLast? = some c := by
  obtain ⟨r, hr, hblanks⟩ := Option.bind_eq_some_iff.mp h
  obtain ⟨used, hused, -⟩ := Text.dropWord?_eq_some_iff.mp hr
  have hne : r ≠ [] := by
    rintro rfl
    simp [dropBlanks?] at hblanks
  rw [hused, List.getLast?_append_of_ne_nil _ hne] at he
  exact (dropBlanks?_append he hc []).2 rest hblanks

lemma selectHere_append (he : e.getLast? = some c) (hz : Sealed c z) :
    selectHere (e ++ z) = selectHere e := by
  rw [selectHere, dropWord?_append (by decide) he hz.apart, Option.isSome_map,
    selectHere]

/-- No `UNION SELECT` goes across the seam. -/
lemma unionSelectHere_append (he : e.getLast? = some c) (hc : Text.isBlank c = false)
    (hz : Sealed c z) : unionSelectHere (e ++ z) = unionSelectHere e := by
  have hunion : IsSmallWord "union".toList := by decide
  have hall : IsSmallWord "all".toList := by decide
  rw [Bool.eq_iff_iff, unionSelectHere_iff, unionSelectHere_iff]
  constructor
  · rintro ⟨rest, hrest, hselect⟩
    rcases (dropWord?_dropBlanks?_append hunion he hc hz).mp hrest with
      ⟨rest₀, hrest₀, rfl⟩ | ⟨hnil, hblanks⟩
    · have hlast := getLast?_of_dropWord?_dropBlanks? he hc hrest₀
      refine ⟨rest₀, hrest₀, ?_⟩
      rcases hselect with hselect | ⟨rest', hrest', hselect⟩
      · exact .inl (by rwa [selectHere_append hlast hz] at hselect)
      · rcases (dropWord?_dropBlanks?_append hall hlast hc hz).mp hrest' with
          ⟨rest₁, hrest₁, rfl⟩ | ⟨hnil, hblanks⟩
        · have hlast' := getLast?_of_dropWord?_dropBlanks? hlast hc hrest₁
          exact .inr ⟨rest₁, hrest₁, by rwa [selectHere_append hlast' hz] at hselect⟩
        · have hblocked := hz.blocked (isWord_of_dropWord?_eq_nil hall hlast hnil) _ hblanks
          rw [hblocked.2] at hselect
          exact absurd hselect (by decide)
    · -- behind the seam stands neither of the two words
      have hblocked := hz.blocked (isWord_of_dropWord?_eq_nil hunion he hnil) _ hblanks
      rcases hselect with hselect | ⟨rest', hrest', -⟩
      · rw [hblocked.2] at hselect
        exact absurd hselect (by decide)
      · rw [hblocked.1] at hrest'
        exact absurd hrest' (by simp)
  · rintro ⟨rest₀, hrest₀, hselect⟩
    have hlast := getLast?_of_dropWord?_dropBlanks? he hc hrest₀
    refine ⟨rest₀ ++ z, (dropWord?_dropBlanks?_append hunion he hc hz).mpr
      (.inl ⟨rest₀, hrest₀, rfl⟩), ?_⟩
    rcases hselect with hselect | ⟨rest₁, hrest₁, hselect⟩
    · exact .inl (by rwa [selectHere_append hlast hz])
    · have hlast' := getLast?_of_dropWord?_dropBlanks? hlast hc hrest₁
      exact .inr ⟨rest₁ ++ z, (dropWord?_dropBlanks?_append hall hlast hc hz).mpr
        (.inl ⟨rest₁, hrest₁, rfl⟩), by rwa [selectHere_append hlast' hz]⟩

/-- Every `UNION SELECT` stands on one side. -/
lemma anyEnd_unionSelectHere_append (he : e.getLast? = some c) (hc : Text.isBlank c = false)
    (hz : Sealed c z) : anyEnd unionSelectHere (e ++ z) =
      (anyEnd unionSelectHere e || anyEnd unionSelectHere z) := by
  have hnil : unionSelectHere [] = false := by decide
  have htail : ∀ fs : List Char, (fs = [] ∨ fs.getLast? = some c) →
      anyEnd unionSelectHere (fs ++ z) =
        (anyEnd unionSelectHere fs || anyEnd unionSelectHere z) := by
    intro fs
    induction fs with
    | nil => simp [anyEnd, hnil]
    | cons f fs ih =>
      intro hfs
      have hlast : (f :: fs).getLast? = some c := by simpa using hfs
      have hrest : fs = [] ∨ fs.getLast? = some c := by
        rcases List.eq_nil_or_concat fs with rfl | ⟨gs, g, rfl⟩
        · exact .inl rfl
        · exact .inr (by rwa [List.getLast?_cons_of_ne_nil (by simp)] at hlast)
      have hhere := unionSelectHere_append hlast hc hz
      rw [List.cons_append] at hhere
      rw [List.cons_append, anyEnd, anyEnd, hhere, ih hrest, Bool.or_assoc]
  exact htail e (.inr he)

end Words

/-! ## With a space and without -/

/-- The text is one of the words that a query begins with. -/
def IsReadWord (x : List Char) : Prop :=
  Text.sameWord "select" x = true ∨ Text.sameWord "with" x = true

lemma dropWord?_eq_nil_iff {word : String} {x : List Char} :
    Text.dropWord? word.toList x = some [] ↔ Text.sameWord word x = true := by
  rw [Text.dropWord?_eq_some_iff, Text.sameWord, beq_iff_eq]
  simp

/-- A text that opens a comment does so on one side of a seam or across it. -/
lemma hasOpener_append {xs ys : List Char} : HasOpener (xs ++ ys) ↔
    HasOpener xs ∨ HasOpener ys ∨ (xs.getLast? = some '/' ∧ ys.head? = some '*') := by
  induction xs with
  | nil => simp [not_hasOpener_nil]
  | cons x xs ih =>
    rw [List.cons_append, hasOpener_cons, hasOpener_cons, ih]
    cases xs with
    | nil => simp [not_hasOpener_nil, or_comm]
    | cons x' xs => simp [or_assoc]

section Seam

variable {c d : Char} {x y : List Char} (hx : x.getLast? = some c) (hy : y.head? = some d)
  (hc : Text.isBlank c = false) (hd : Text.isBlank d = false)
  (hword : ¬ (Text.isWord c = true ∧ Text.isWord d = true))

include hy hd hword in
lemma sealed_glued : Sealed c y where
  apart := by
    intro hcw d' hd'
    obtain rfl : d = d' := by simpa [hy] using hd'
    simpa using fun hdw => hword ⟨hcw, hdw⟩
  blocked := by
    intro _ z' hz'
    obtain ⟨ds, rfl⟩ := List.head?_eq_some_iff.mp hy
    simp [dropBlanks?, hd] at hz'

include hy hd hword in
lemma sealed_spaced : Sealed c (' ' :: y) := by
  obtain ⟨ds, rfl⟩ := List.head?_eq_some_iff.mp hy
  refine sealed_space hd fun hcw => ?_
  have hnone : ∀ {k : Char} {ks : List Char}, Text.isSmall k = true →
      Text.dropWord? (k :: ks) (d :: ds) = none := by
    intro k ks hk
    rw [Text.dropWord?, if_neg]
    intro hfold
    exact hword ⟨hcw, isWord_of_foldLetter hk (beq_iff_eq.mp hfold)⟩
  have hall : Text.dropWord? "all".toList (d :: ds) = none := hnone (by decide)
  have hselect : Text.dropWord? "select".toList (d :: ds) = none := hnone (by decide)
  exact ⟨hall, by rw [selectHere, hselect]; rfl⟩

include hx hc in
/-- A query that is read before the seam, or whose first word is all that stands there. -/
lemma isReadStatement_append_iff {z : List Char} (hz : Sealed c z) :
    isReadStatement (x ++ z) = true ↔
      isReadStatement x = true ∨ IsReadWord x ∧ (dropBlanks? z).isSome := by
  have hbegins : ∀ word : String, IsSmallWord word.toList →
      (beginsWith word (x ++ z) = true ↔
        beginsWith word x = true ∨ Text.sameWord word x = true ∧ (dropBlanks? z).isSome) := by
    intro word hsmall
    simp only [beginsWith, Option.isSome_iff_exists, ← dropWord?_eq_nil_iff,
      dropWord?_dropBlanks?_append hsmall hx hc hz]
    constructor
    · rintro ⟨rest, ⟨rest₀, hrest₀, -⟩ | ⟨hnil, hblanks⟩⟩
      · exact .inl ⟨rest₀, hrest₀⟩
      · exact .inr ⟨hnil, rest, hblanks⟩
    · rintro (⟨rest₀, hrest₀⟩ | ⟨hnil, rest, hblanks⟩)
      · exact ⟨rest₀ ++ z, .inl ⟨rest₀, hrest₀, rfl⟩⟩
      · exact ⟨rest, .inr ⟨hnil, hblanks⟩⟩
  rw [isReadStatement, isReadStatement, Bool.or_eq_true, Bool.or_eq_true,
    hbegins "select" (by decide), hbegins "with" (by decide),
    IsReadWord]
  tauto

/-- A word has no blank behind it, so it does not read yet. -/
lemma IsReadWord.not_isReadStatement (h : IsReadWord x) : isReadStatement x = false := by
  have hsmall : ∀ word : String, IsSmallWord word.toList → Text.sameWord word x = true →
      ∀ ch ∈ x, Text.isBlank ch = false := by
    intro word hword hsame ch hch
    rw [Text.sameWord, beq_iff_eq] at hsame
    have hletter := isWord_of_foldLetter (hword _ (hsame ▸ List.mem_map_of_mem hch)) rfl
    by_contra hblank
    rw [Text.isWord_eq_false_of_isBlank (by simpa using hblank)] at hletter
    exact absurd hletter (by decide)
  have hnone : ∀ ch ∈ x, Text.isBlank ch = false := by
    rcases h with h | h
    · exact hsmall "select" (by decide) h
    · exact hsmall "with" (by decide) h
  have hbegins : ∀ word : String, beginsWith word x = false := by
    intro word
    rw [← Bool.not_eq_true, beginsWith, Option.isSome_iff_exists]
    rintro ⟨rest, hrest⟩
    obtain ⟨r, hr, hblanks⟩ := Option.bind_eq_some_iff.mp hrest
    obtain ⟨used, rfl, -⟩ := Text.dropWord?_eq_some_iff.mp hr
    cases r with
    | nil => simp [dropBlanks?] at hblanks
    | cons ch r => simp [dropBlanks?, hnone ch (by simp)] at hblanks
  rw [isReadStatement, hbegins, hbegins, Bool.or_false]

include hx hy hword in
/-- The words are the same. -/
lemma words_glued : Text.words (x ++ y) = Text.words (x ++ ' ' :: y) := by
  rw [Text.words_append_cons (by decide), words_append]
  rintro ⟨c', hc', d', hd', hcw, hdw⟩
  obtain rfl : c = c' := by simpa [hx] using hc'
  obtain rfl : d = d' := by simpa [hy] using hd'
  exact hword ⟨hcw, hdw⟩

lemma count_glued {ch : Char} (hch : ch ≠ ' ') (x y : List Char) :
    (x ++ y).count ch = (x ++ ' ' :: y).count ch := by
  rw [List.count_append, List.count_append, List.count_cons_of_ne (Ne.symm hch)]

include hx hy hc hd hword in
/-- A first word that stands alone before the seam needs the space. -/
lemma isReadStatement_glued_iff : isReadStatement (x ++ y) = true ↔
    isReadStatement (x ++ ' ' :: y) = true ∧ ¬ IsReadWord x := by
  have hnone : (dropBlanks? y).isSome = false := by
    obtain ⟨ds, rfl⟩ := List.head?_eq_some_iff.mp hy
    simp [dropBlanks?, hd]
  have hsome : (dropBlanks? (' ' :: y)).isSome = true := by
    have hspace : Text.isBlank ' ' = true := by decide
    simp [dropBlanks?, hspace]
  rw [isReadStatement_append_iff hx hc (sealed_glued hy hd hword),
    isReadStatement_append_iff hx hc (sealed_spaced hy hd hword), hnone, hsome]
  constructor
  · rintro (h | ⟨-, h⟩)
    · refine ⟨.inl h, fun hlone => ?_⟩
      rw [hlone.not_isReadStatement] at h
      exact absurd h (by decide)
    · exact absurd h (by decide)
  · rintro ⟨h | ⟨hlone, -⟩, hnot⟩
    · exact .inl h
    · exact absurd hlone hnot

include hx hy hc hd hword in
/-- No `UNION SELECT` needs the space. -/
lemma anyEnd_unionSelectHere_glued :
    anyEnd unionSelectHere (x ++ y) = anyEnd unionSelectHere (x ++ ' ' :: y) := by
  have hhere : unionSelectHere (' ' :: y) = false := by
    rw [← Bool.not_eq_true]
    intro h
    exact absurd (unionSelectHere_cons h).1 (by decide)
  rw [anyEnd_unionSelectHere_append hx hc (sealed_glued hy hd hword),
    anyEnd_unionSelectHere_append hx hc (sealed_spaced hy hd hword), anyEnd.eq_2, hhere,
    Bool.false_or]

include hx hy in
/-- A comment can be opened across the seam. -/
lemma hasOpener_glued_iff :
    HasOpener (x ++ y) ↔ HasOpener (x ++ ' ' :: y) ∨ (c = '/' ∧ d = '*') := by
  rw [hasOpener_append, hasOpener_append_cons (by decide) (by decide), hx, hy]
  simp [or_assoc]

include hx hy hc hd hword in
/-- A text that is put together is clean without a space exactly if it is clean with one, if
more than the first word stands before the seam, and if no comment is opened across it. -/
theorem clean_append_iff : Clean (x ++ y) ↔
    Clean (x ++ ' ' :: y) ∧ ¬ IsReadWord x ∧ ¬ (c = '/' ∧ d = '*') := by
  have hwords := words_glued hx hy hword
  have hread := isReadStatement_glued_iff hx hy hc hd hword
  have hunion := anyEnd_unionSelectHere_glued hx hy hc hd hword
  have hopener := hasOpener_glued_iff hx hy
  have hopen : (x ++ y).count '(' = (x ++ ' ' :: y).count '(' := count_glued (by decide) x y
  have hclose : (x ++ y).count ')' = (x ++ ' ' :: y).count ')' := count_glued (by decide) x y
  have hsingle : ';' ∉ x ++ y ↔ ';' ∉ x ++ ' ' :: y := by
    rw [← List.count_eq_zero, ← List.count_eq_zero, count_glued (by decide)]
  constructor
  · rintro ⟨hharmless, hreads, hbalanced, hone, hclosed, hno⟩
    exact ⟨⟨hwords ▸ hharmless, (hread.mp hreads).1, by rw [← hopen, ← hclose, hbalanced],
      hsingle.mp hone, fun h => hclosed (hopener.mpr (.inl h)), hunion ▸ hno⟩,
      (hread.mp hreads).2, fun h => hclosed (hopener.mpr (.inr h))⟩
  · rintro ⟨⟨hharmless, hreads, hbalanced, hone, hclosed, hno⟩, hlone, hseam⟩
    exact ⟨hwords ▸ hharmless, hread.mpr ⟨hreads, hlone⟩, by rw [hopen, hclose, hbalanced],
      hsingle.mpr hone, fun h => (hopener.mp h).elim hclosed hseam, hunion ▸ hno⟩

end Seam

/-! ## Before the blanks are put together -/

section Pieces

variable {c d : Char} {xs ys : List Char}

lemma pieces_cons_of_blank (hc : Text.isBlank c = true) (xs : List Char) :
    Text.pieces (c :: xs) = Text.pieces xs := Text.runs_cons hc xs

/-- A character in front of a piece belongs to the piece. -/
lemma spaced_pieces_cons (hc : Text.isBlank c = false) (hx : xs.head? = some d)
    (hd : Text.isBlank d = false) :
    Text.spaced (Text.pieces (c :: xs)) = c :: Text.spaced (Text.pieces xs) := by
  obtain ⟨ds, rfl⟩ := List.head?_eq_some_iff.mp hx
  obtain ⟨v, vs, hvs⟩ := List.exists_cons_of_ne_nil (Text.splitWhere_ne_nil Text.isBlank ds)
  simp only [Text.pieces, Text.runs, Text.splitWhere_cons, hvs, Text.splitStep, hc, hd]
  cases hrest : vs.filter (!·.isEmpty) with
  | nil => simp [hrest]
  | cons w ws => simp [hrest, Text.spaced_cons_cons]

lemma pieces_singleton (hc : Text.isBlank c = false) : Text.pieces [c] = [[c]] :=
  Text.runs_of_forall_not (by simp) (by simpa using hc)

lemma pieces_ne_nil (hx : c ∈ xs) (hc : Text.isBlank c = false) : Text.pieces xs ≠ [] := by
  intro hnil
  have hcount := Text.count_spaced_pieces hc xs
  rw [hnil, Text.spaced_nil, List.count_nil, eq_comm, List.count_eq_zero] at hcount
  exact hcount hx

lemma spaced_pieces_cons_cons_of_blank (hc : Text.isBlank c = false) (hd : Text.isBlank d = true)
    (hne : Text.pieces xs ≠ []) :
    Text.spaced (Text.pieces (c :: d :: xs)) = c :: ' ' :: Text.spaced (Text.pieces (d :: xs)) := by
  have hpieces := Text.pieces_append_cons hd [c] xs
  rw [pieces_singleton hc] at hpieces
  rw [← List.singleton_append, hpieces, Text.spaced_append (by simp) hne, Text.spaced_singleton,
    pieces_cons_of_blank hd]
  rfl

lemma pieces_append_of_blank {t : List Char} (ht : ∀ c ∈ t, Text.isBlank c = true)
    (xs : List Char) : Text.pieces (xs ++ t) = Text.pieces xs := by
  induction t generalizing xs with
  | nil => rw [List.append_nil]
  | cons b t ih =>
    obtain ⟨hb, ht⟩ := List.forall_mem_cons.mp ht
    rw [Text.pieces_append_cons hb, ← List.nil_append t, ih ht []]
    simp [Text.pieces]

/-- Where no blank stands at the seam the last piece goes on. -/
lemma spaced_pieces_append (hx : xs.getLast? = some c) (hc : Text.isBlank c = false)
    (hy : ys.head? = some d) (hd : Text.isBlank d = false) :
    Text.spaced (Text.pieces (xs ++ ys)) =
      Text.spaced (Text.pieces xs) ++ Text.spaced (Text.pieces ys) := by
  induction xs with
  | nil => simp at hx
  | cons x xs ih =>
    rcases List.eq_nil_or_concat xs with rfl | hne
    · obtain rfl : x = c := by simpa using hx
      rw [pieces_singleton hc, Text.spaced_singleton]
      exact spaced_pieces_cons hc hy hd
    · obtain ⟨z, zs, rfl⟩ : ∃ z zs, xs = z :: zs := by
        obtain ⟨gs, g, rfl⟩ := hne
        exact List.exists_cons_of_ne_nil (by simp)
      have hlast : (z :: zs).getLast? = some c := by simpa using hx
      have hrest := ih hlast
      by_cases hblank : Text.isBlank x = true
      · -- a blank in front goes on both sides
        rw [List.cons_append, pieces_cons_of_blank hblank, hrest, pieces_cons_of_blank hblank]
      · have hblank' : Text.isBlank x = false := by simpa using hblank
        by_cases hz : Text.isBlank z = true
        · -- a piece of one character, and more pieces before the seam
          have hmem : c ∈ zs := by
            have hne : zs ≠ [] := by
              rintro rfl
              obtain rfl : z = c := by simpa using hlast
              rw [hz] at hc
              exact absurd hc (by decide)
            rw [List.getLast?_cons_of_ne_nil hne] at hlast
            exact List.mem_of_getLast? hlast
          have hpieces := pieces_ne_nil hmem hc
          have hpieces' := pieces_ne_nil (List.mem_append_left ys hmem) hc
          rw [List.cons_append] at hrest
          rw [List.cons_append, List.cons_append,
            spaced_pieces_cons_cons_of_blank hblank' hz hpieces', hrest,
            spaced_pieces_cons_cons_of_blank hblank' hz hpieces]
          rfl
        · -- the character is part of the first piece
          have hz' : Text.isBlank z = false := by simpa using hz
          rw [List.cons_append, spaced_pieces_cons (d := z) hblank' rfl hz', hrest,
            spaced_pieces_cons (d := z) hblank' rfl hz']
          rfl

lemma getLast?_spaced_pieces (hx : xs.getLast? = some c) (hc : Text.isBlank c = false) :
    (Text.spaced (Text.pieces xs)).getLast? = some c := by
  obtain ⟨gs, rfl⟩ := List.getLast?_eq_some_iff.mp hx
  rcases List.eq_nil_or_concat gs with rfl | ⟨hs, b, rfl⟩
  · rw [List.nil_append, pieces_singleton hc, Text.spaced_singleton]
    rfl
  · by_cases hb : Text.isBlank b = true
    · have hpieces := Text.pieces_append_cons hb hs [c]
      rw [pieces_singleton hc] at hpieces
      rw [List.concat_eq_append, List.append_assoc, List.singleton_append, hpieces]
      by_cases hnil : Text.pieces hs = []
      · rw [hnil, List.nil_append, Text.spaced_singleton]
        rfl
      · rw [Text.spaced_append hnil (by simp), Text.spaced_singleton]
        simp
    · have hb' : Text.isBlank b = false := by simpa using hb
      have hback : Text.spaced (Text.pieces (hs.concat b ++ [c])) =
          Text.spaced (Text.pieces (hs.concat b)) ++ Text.spaced (Text.pieces [c]) :=
        spaced_pieces_append (by simp) hb' rfl hc
      rw [hback, pieces_singleton hc, Text.spaced_singleton]
      simp

lemma head?_spaced_pieces (hy : ys.head? = some d) (hd : Text.isBlank d = false) :
    (Text.spaced (Text.pieces ys)).head? = some d := by
  obtain ⟨ds, rfl⟩ := List.head?_eq_some_iff.mp hy
  cases ds with
  | nil =>
    rw [pieces_singleton hd, Text.spaced_singleton]
    rfl
  | cons z zs =>
    by_cases hz : Text.isBlank z = true
    · by_cases hnil : Text.pieces zs = []
      · have hpieces := Text.pieces_append_cons hz [d] zs
        rw [pieces_singleton hd, hnil] at hpieces
        rw [← List.singleton_append, hpieces, List.append_nil, Text.spaced_singleton]
        rfl
      · rw [spaced_pieces_cons_cons_of_blank hd hz hnil]
        rfl
    · rw [spaced_pieces_cons (d := z) hd rfl (by simpa using hz)]
      rfl

/-- A normal form ends with no blank. -/
lemma isBlank_getLast?_spaced_pieces (xs : List Char) :
    ∀ c ∈ (Text.spaced (Text.pieces xs)).getLast?, Text.isBlank c = false := by
  intro c hc
  obtain ⟨t, ht, hblank⟩ := Text.exists_dropEndWhile_append Text.isBlank xs
  rw [ht, pieces_append_of_blank hblank] at hc
  rcases hlast : (Text.dropEndWhile Text.isBlank xs).getLast? with _ | d
  · rw [List.getLast?_eq_none_iff.mp hlast] at hc
    simp [Text.pieces] at hc
  · have hd := Text.getLast?_dropEndWhile hlast
    rw [getLast?_spaced_pieces hlast hd] at hc
    obtain rfl : d = c := by simpa using hc
    exact hd

end Pieces

/-- Between the two texts stands no blank. -/
def Touching (xs ys : List Char) : Prop :=
  ∃ c ∈ xs.getLast?, ∃ d ∈ ys.head?, Text.isBlank c = false ∧ Text.isBlank d = false

/-- Side by side the texts begin with no word that reads, or they open a comment. -/
def Clash (xs ys : List Char) : Prop :=
  Touching xs ys ∧ (IsReadWord (Text.spaced (Text.pieces xs)) ∨
    xs.getLast? = some '/' ∧ ys.head? = some '*')

/-- Two texts that make up no longer word where they meet: side by side they are clean exactly
if they are with a space between them and do not clash. -/
theorem clean_pieces_append_iff {xs ys : List Char} (hjoined : ¬ Joined xs ys) :
    Clean (Text.spaced (Text.pieces (xs ++ ys))) ↔
      Clean (Text.spaced (Text.pieces (xs ++ ' ' :: ys))) ∧ ¬ Clash xs ys := by
  have hspace := Text.pieces_append_cons (c := ' ') (by decide) xs ys
  by_cases htouch : Touching xs ys
  · obtain ⟨c, hx, d, hy, hc, hd⟩ := id htouch
    have hlast := getLast?_spaced_pieces hx hc
    have hhead := head?_spaced_pieces hy hd
    have hword : ¬ (Text.isWord c = true ∧ Text.isWord d = true) :=
      fun h => hjoined ⟨c, hx, d, hy, h⟩
    have hxne := pieces_ne_nil (List.mem_of_getLast? hx) hc
    have hyne := pieces_ne_nil (List.mem_of_mem_head? hy) hd
    rw [spaced_pieces_append hx hc hy hd, hspace, Text.spaced_append hxne hyne,
      clean_append_iff hlast hhead hc hd hword, Clash, Option.mem_def.mp hx, Option.mem_def.mp hy]
    simp only [Option.some.injEq, htouch, true_and, not_or]
  · -- a blank at the seam, or an end of the text, separates like the space
    have hpieces : Text.pieces (xs ++ ys) = Text.pieces xs ++ Text.pieces ys := by
      refine Text.runs_append ?_
      by_contra hboth
      obtain ⟨⟨c, hx, hc⟩, d, hy, hd⟩ := by simpa [not_or] using hboth
      exact htouch ⟨c, hx, d, hy, by simpa using hc, by simpa using hd⟩
    rw [hpieces, hspace]
    exact (and_iff_left fun h => htouch h.1).symm

end RevenueDesk.Sql
