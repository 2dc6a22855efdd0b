/-
# Replaced references do not mean anything to the guard

A clean text stays clean when some of its references are replaced by positions or by `NULL`
(`Clean.rewritten`).  One lemma for every thing that the guard looks for:

* dangerous words: a word in which a position or a `NULL` stands is not dangerous, and every
  other word stands in the text before (`Rewritten.harmless`);
* `UNION SELECT`: no part of it is written in the place of a reference
  (`Rewritten.anyEnd_unionSelectHere`);
* parentheses, semicolons and comments: there are as many as before, at the same places.
-/
import Mathlib.Data.List.Chain
import RevenueDesk.Proofs.Sql.Rewriting

namespace RevenueDesk.Sql

variable {a b : List Char}

/-! ## Single characters -/

/-- Characters that are not inert occur as often as before. -/
lemma Rewritten.count_eq (h : Rewritten a b) {c : Char} (hc : ¬ Inert c) :
    b.count c = a.count c := by
  have hnone : ∀ ds : List Char, (∀ d ∈ ds, Inert d) → ds.count c = 0 := by
    intro ds hds
    rw [List.count_eq_zero]
    exact fun hmem => hc (hds c hmem)
  induction h with
  | nil => rfl
  | keep d _ ih => rw [List.count_cons, List.count_cons, ih]
  | place hname hplaced _ ih =>
    rw [List.count_append, List.count_append, hnone _ hname.inert, hnone _ hplaced.inert, ih]

lemma hasOpener_append_iff {xs : List Char} (h : ∀ c ∈ xs, c ≠ '/') :
    HasOpener (xs ++ a) ↔ HasOpener a := by
  induction xs with
  | nil => rfl
  | cons c cs ih =>
    obtain ⟨hc, hcs⟩ := List.forall_mem_cons.mp h
    rw [List.cons_append, hasOpener_cons, ih hcs]
    simp [hc]

/-- Comments begin at the same places. -/
lemma Rewritten.hasOpener_iff (h : Rewritten a b) : HasOpener b ↔ HasOpener a := by
  induction h with
  | nil => rfl
  | @keep a b c h ih =>
    rw [hasOpener_cons, hasOpener_cons, ih, h.head?_iff fun hi => hi.ne_star rfl]
  | place hname hplaced _ ih =>
    rw [hasOpener_append_iff fun c hc => (hplaced.inert c hc).ne_slash,
      hasOpener_append_iff fun c hc => (hname.inert c hc).ne_slash, ih]

/-! ## Words -/

/-- A row of characters with a digit or a `NULL` in it. -/
def Marked (w : List Char) : Prop :=
  (∃ c ∈ w, Text.isDigit c = true) ∨ ['N', 'U', 'L', 'L'] <:+: w

lemma Marked.append_left {w : List Char} (h : Marked w) (xs : List Char) : Marked (xs ++ w) := by
  rcases h with ⟨c, hc, hd⟩ | h
  · exact Or.inl ⟨c, List.mem_append_right _ hc, hd⟩
  · exact Or.inr (h.trans (List.suffix_append xs w).isInfix)

lemma foldLetter_of_isDigit {c : Char} (h : Text.isDigit c = true) : Text.foldLetter c = c := by
  have hbounds : 48 ≤ c.toNat ∧ c.toNat ≤ 57 := by
    simpa [Text.isDigit, Char.le_def, UInt32.le_iff_toNat_le] using h
  have hcapital : Text.isCapital c = false := by
    by_contra hne
    have : 65 ≤ c.toNat ∧ c.toNat ≤ 90 := by
      simpa [Text.isCapital, Char.le_def, UInt32.le_iff_toNat_le] using hne
    omega
  have hne : ∀ d : Char, 57 < d.toNat → c ≠ d := by
    rintro d hd rfl
    omega
  simp [Text.foldLetter, hcapital, hne '\u017F' (by decide), hne '\u212A' (by decide)]

/-- No dangerous word is marked. -/
lemma Marked.not_dangerous {w : List Char} (h : Marked w) : ¬ Dangerous w := by
  rintro ⟨d, hd, hw⟩
  have hfold : w.map Text.foldLetter = d.toList := by simpa [Text.sameWord] using hw
  rcases h with ⟨c, hc, hdigit⟩ | h
  · have hmem : c ∈ d.toList := by
      rw [← hfold, ← foldLetter_of_isDigit hdigit]
      exact List.mem_map_of_mem hc
    have hletters : ∀ d ∈ dangerousWords, ∀ c ∈ d.toList, Text.isDigit c = false := by decide
    simp [hletters d hd c hmem] at hdigit
  · -- no dangerous word has two letters L
    have htwo : 2 ≤ d.toList.count 'l' := by
      rw [← hfold]
      exact (h.map Text.foldLetter).sublist.count_le 'l'
    have hone : ∀ d ∈ dangerousWords, d.toList.count 'l' ≤ 1 := by decide
    have := hone d hd
    omega

/-- Where words are separated. -/
abbrev notWord (c : Char) : Bool := !Text.isWord c

lemma isWord_of_isAsciiWord {c : Char} (h : Text.isAsciiWord c = true) :
    Text.isWord c = true := by
  have hbounds := Text.toNat_of_isAsciiWord h
  have hlt : c.val < 0x80 := by
    simp only [UInt32.lt_iff_toNat_lt, Char.toNat_val, UInt32.reduceToNat]
    omega
  simp [Text.isWord, hlt, h]

/-- The parts between words: those behind the first one are marked or stand in the text
before, and the first one is marked or the same as before. -/
lemma Rewritten.splitWhere_notWord (h : Rewritten a b) :
    ∃ u us v vs, Text.splitWhere notWord a = u :: us ∧ Text.splitWhere notWord b = v :: vs ∧
      (v = u ∨ Marked v) ∧ ∀ w ∈ vs, w ∈ us ∨ Marked w := by
  induction h with
  | nil => exact ⟨[], [], [], [], rfl, rfl, Or.inl rfl, by simp⟩
  | @keep a b c h ih =>
    obtain ⟨u, us, v, vs, hu, hv, hhead, htail⟩ := ih
    rw [Text.splitWhere_cons, Text.splitWhere_cons, hu, hv]
    unfold Text.splitStep
    split
    · -- the parts so far are now behind an empty first one
      refine ⟨[], u :: us, [], v :: vs, rfl, rfl, Or.inl rfl, ?_⟩
      refine List.forall_mem_cons.mpr ⟨?_, ?_⟩
      · rcases hhead with rfl | hmarked
        · exact Or.inl List.mem_cons_self
        · exact Or.inr hmarked
      · intro w hw
        exact (htail w hw).imp_left (List.mem_cons_of_mem u)
    · refine ⟨c :: u, us, c :: v, vs, rfl, rfl, ?_, htail⟩
      rcases hhead with rfl | hmarked
      · exact Or.inl rfl
      · exact Or.inr (hmarked.append_left [c])
  | @place a b name placed hname hplaced h ih =>
    obtain ⟨u, us, v, vs, hu, hv, hhead, htail⟩ := ih
    have hnameWord : ∀ c ∈ name, notWord c = false := by
      intro c hc
      simp [isWord_of_isAsciiWord (isAsciiWord_of_isNameChar (hname c hc))]
    -- the colon separates, the name joins the part behind it
    have hcolon : Text.splitWhere notWord ((':' :: name) ++ a) = [] :: (name ++ u) :: us := by
      rw [List.cons_append, Text.splitWhere_cons,
        Text.splitWhere_append_of_forall_not hnameWord hu]
      rfl
    cases hplaced with
    | null =>
      have hword : ∀ c ∈ ['N', 'U', 'L', 'L'], notWord c = false := by decide
      refine ⟨[], (name ++ u) :: us, _, vs, hcolon,
        Text.splitWhere_append_of_forall_not hword hv, Or.inr ?_, ?_⟩
      · exact Or.inr (List.prefix_append _ v).isInfix
      · intro w hw
        exact (htail w hw).imp_left (List.mem_cons_of_mem _)
    | @position d ds hds =>
      have hword : ∀ c ∈ d :: ds, notWord c = false := by
        intro c hc
        simp [isWord_of_isAsciiWord (isAsciiWord_of_isDigit (hds c hc))]
      have hdollar : Text.splitWhere notWord (('$' :: d :: ds) ++ b) =
          [] :: ((d :: ds) ++ v) :: vs := by
        rw [List.cons_append, Text.splitWhere_cons,
          Text.splitWhere_append_of_forall_not hword hv]
        rfl
      refine ⟨[], (name ++ u) :: us, [], _, hcolon, hdollar, Or.inl rfl, ?_⟩
      refine List.forall_mem_cons.mpr ⟨Or.inr (Or.inl ?_), ?_⟩
      · exact ⟨d, by simp, hds d List.mem_cons_self⟩
      · intro w hw
        exact (htail w hw).imp_left (List.mem_cons_of_mem _)

/-- No dangerous word comes about. -/
lemma Rewritten.harmless (h : Rewritten a b) (ha : ∀ w ∈ Text.words a, ¬ Dangerous w) :
    ∀ w ∈ Text.words b, ¬ Dangerous w := by
  obtain ⟨u, us, v, vs, hu, hv, hhead, htail⟩ := h.splitWhere_notWord
  intro w hw
  obtain ⟨hpart, hne⟩ := List.mem_filter.mp hw
  -- a part that stands in the text before is a word there
  have hbefore : w ∈ u :: us → ¬ Dangerous w := by
    intro hmem
    exact ha w (List.mem_filter.mpr ⟨hu ▸ hmem, hne⟩)
  rw [hv] at hpart
  rcases List.mem_cons.mp hpart with rfl | hmem
  · rcases hhead with rfl | hmarked
    · exact hbefore List.mem_cons_self
    · exact hmarked.not_dangerous
  · rcases htail w hmem with hus | hmarked
    · exact hbefore (List.mem_cons_of_mem _ hus)
    · exact hmarked.not_dangerous

/-! ## Words at one place -/

/-- A blank is not inert. -/
lemma not_inert_of_isBlank {c : Char} (h : Text.isBlank c = true) : ¬ Inert c := by
  intro hi
  simp [hi.not_blank] at h

/-- Blanks at the beginning are the same. -/
lemma Rewritten.dropWhile_isBlank (h : Rewritten a b) :
    Rewritten (a.dropWhile Text.isBlank) (b.dropWhile Text.isBlank) := by
  induction h with
  | nil => exact .nil
  | @keep a b c h ih =>
    rw [List.dropWhile_cons, List.dropWhile_cons]
    split
    · exact ih
    · exact .keep c h
  | @place a b name placed hname hplaced h _ =>
    obtain ⟨d, ds, rfl⟩ := List.exists_cons_of_ne_nil hplaced.ne_nil
    have hd : Text.isBlank d = false := (hplaced.inert d List.mem_cons_self).not_blank
    rw [List.cons_append, List.cons_append,
      List.dropWhile_cons_of_neg (by simp [inert_colon.not_blank]),
      List.dropWhile_cons_of_neg (by simp [hd])]
    exact .place hname hplaced h

lemma Rewritten.dropBlanks? (h : Rewritten a b) :
    (dropBlanks? a = none ∧ dropBlanks? b = none) ∨
      ∃ r r', dropBlanks? a = some r ∧ dropBlanks? b = some r' ∧ Rewritten r r' := by
  cases h with
  | nil => exact Or.inl ⟨rfl, rfl⟩
  | @keep a b c h =>
    unfold Sql.dropBlanks?
    split
    · rename_i hnil
      simp at hnil
    · rename_i d ds hds
      obtain ⟨rfl, rfl⟩ := by simpa using hds
      by_cases hc : Text.isBlank c = true
      · exact Or.inr ⟨_, _, if_pos hc, if_pos hc, h.dropWhile_isBlank⟩
      · exact Or.inl ⟨if_neg hc, if_neg hc⟩
  | @place a b name placed hname hplaced h =>
    obtain ⟨d, ds, rfl⟩ := List.exists_cons_of_ne_nil hplaced.ne_nil
    have hd : Text.isBlank d = false := (hplaced.inert d List.mem_cons_self).not_blank
    have hcolon : Text.isBlank ':' = false := inert_colon.not_blank
    exact Or.inl ⟨by simp [Sql.dropBlanks?, hcolon], by simp [Sql.dropBlanks?, hd]⟩

/-- A word without a colon that the text before begins with stands there still. -/
lemma Rewritten.dropWord?_of_before (h : Rewritten a b) {word rest : List Char}
    (hword : ':' ∉ word) (ha : Text.dropWord? word a = some rest) :
    ∃ rest', Text.dropWord? word b = some rest' ∧ Rewritten rest rest' := by
  induction word generalizing a b with
  | nil =>
    obtain rfl : a = rest := by simpa [Text.dropWord?] using ha
    exact ⟨b, rfl, h⟩
  | cons w ws ih =>
    obtain ⟨hw, hws⟩ : ':' ≠ w ∧ ':' ∉ ws := by simpa using hword
    cases h with
    | nil => simp [Text.dropWord?] at ha
    | @keep a b c h =>
      rw [Text.dropWord?] at ha ⊢
      split at ha
      · rename_i hc
        rw [if_pos hc]
        exact ih h hws ha
      · simp at ha
    | place _ _ _ =>
      have hcolon : Text.foldLetter ':' = ':' := by decide
      simp [Text.dropWord?, hcolon, hw] at ha

/-- Letters that do not read on from `NULL` into what stands in front of it. -/
def Plainly (word : List Char) : Prop :=
  '$' ∉ word ∧ word.IsChain fun c d => c = 'n' → d ≠ 'u'

instance (word : List Char) : Decidable (Plainly word) :=
  inferInstanceAs (Decidable (_ ∧ _))

/-- A word that the text begins with stood there before, unless the `n` at its end is the
first letter of a `NULL`. -/
lemma Rewritten.dropWord?_of_after (h : Rewritten a b) {word rest : List Char}
    (hword : Plainly word) (hb : Text.dropWord? word b = some rest) :
    (∃ rest₀, Text.dropWord? word a = some rest₀ ∧ Rewritten rest₀ rest) ∨
      word.getLast? = some 'n' ∧ rest.head? = some 'U' := by
  induction word generalizing a b with
  | nil =>
    obtain rfl : b = rest := by simpa [Text.dropWord?] using hb
    exact Or.inl ⟨a, rfl, h⟩
  | cons w ws ih =>
    obtain ⟨hdollar, hchain⟩ := hword
    obtain ⟨hw, hws⟩ : '$' ≠ w ∧ '$' ∉ ws := by simpa using hdollar
    cases h with
    | nil => simp [Text.dropWord?] at hb
    | @keep a b c h =>
      rw [Text.dropWord?] at hb ⊢
      split at hb
      · rename_i hc
        rw [if_pos hc]
        rcases ih h ⟨hws, hchain.tail⟩ hb with hkept | ⟨hlast, hhead⟩
        · exact Or.inl hkept
        · exact Or.inr ⟨by simp [List.getLast?_cons, hlast], hhead⟩
      · simp at hb
    | place _ hplaced _ =>
      cases hplaced with
      | position hds =>
        have hfold : Text.foldLetter '$' = '$' := by decide
        simp [Text.dropWord?, hfold, hw] at hb
      | null =>
        have hN : Text.foldLetter 'N' = 'n' := by decide
        have hU : Text.foldLetter 'U' = 'u' := by decide
        rw [List.cons_append, Text.dropWord?, hN] at hb
        split at hb
        · rename_i hn
          obtain rfl : 'n' = w := by simpa using hn
          cases ws with
          | nil =>
            obtain rfl := by simpa [Text.dropWord?] using hb
            exact Or.inr ⟨rfl, rfl⟩
          | cons v vs =>
            -- the letter behind this one is not a `u`
            have hv : v ≠ 'u' := (List.isChain_cons_cons.mp hchain).1 rfl
            simp [Text.dropWord?, hU, hv.symm] at hb
        · simp at hb

/-- The same with blanks behind the word: no blank is written in the place of a reference. -/
lemma Rewritten.dropWord?_dropBlanks? (h : Rewritten a b) {word rest : List Char}
    (hword : Plainly word) (hb : (Text.dropWord? word b).bind Sql.dropBlanks? = some rest) :
    ∃ rest₀, (Text.dropWord? word a).bind Sql.dropBlanks? = some rest₀ ∧ Rewritten rest₀ rest := by
  obtain ⟨r, hr, hblanks⟩ := Option.bind_eq_some_iff.mp hb
  rcases h.dropWord?_of_after hword hr with ⟨r₀, hr₀, hrewritten⟩ | ⟨-, hhead⟩
  · rcases hrewritten.dropBlanks? with ⟨-, hnone⟩ | ⟨s, s', hs, hs', hrest⟩
    · simp [hblanks] at hnone
    · obtain rfl : rest = s' := by simpa using hblanks.symm.trans hs'
      exact ⟨s, by simp [hr₀, hs], hrest⟩
  · obtain ⟨ds, rfl⟩ := List.head?_eq_some_iff.mp hhead
    have hU : Text.isBlank 'U' = false := by decide
    simp [Sql.dropBlanks?, hU] at hblanks

/-- The text begins like a query that reads if it did before. -/
lemma Rewritten.isReadStatement (h : Rewritten a b) (ha : isReadStatement a = true) :
    isReadStatement b = true := by
  have hbegins : ∀ word : String, ':' ∉ word.toList → beginsWith word a = true →
      beginsWith word b = true := by
    intro word hword hbegin
    obtain ⟨r, hr⟩ := Option.isSome_iff_exists.mp hbegin
    obtain ⟨s, hs, hblanks⟩ := Option.bind_eq_some_iff.mp hr
    obtain ⟨s', hs', hrewritten⟩ := h.dropWord?_of_before hword hs
    rcases hrewritten.dropBlanks? with ⟨hnone, -⟩ | ⟨t, t', -, ht', -⟩
    · simp [hblanks] at hnone
    · simp [beginsWith, hs', ht']
  unfold Sql.isReadStatement at ha ⊢
  rw [Bool.or_eq_true] at ha ⊢
  exact ha.imp (hbegins "select" (by decide)) (hbegins "with" (by decide))

/-! ## `UNION SELECT` -/

lemma unionSelectHere_iff {text : List Char} :
    unionSelectHere text = true ↔
      ∃ rest, (Text.dropWord? "union".toList text).bind dropBlanks? = some rest ∧
        (selectHere rest = true ∨
          ∃ rest', (Text.dropWord? "all".toList rest).bind dropBlanks? = some rest' ∧
            selectHere rest' = true) := by
  unfold unionSelectHere
  split
  · rename_i hnone
    constructor
    · simp
    · rintro ⟨rest, hrest, -⟩
      simp only [hnone, reduceCtorEq] at hrest
  · rename_i rest hrest
    have hexists : ∀ P : List Char → Prop,
        (∃ r, (Text.dropWord? "union".toList text).bind dropBlanks? = some r ∧ P r) ↔ P rest := by
      intro P
      simp only [hrest, Option.some.injEq, exists_eq_left']
    rw [hexists]
    split
    · rename_i rest' hrest'
      simp only [hrest', Option.some.injEq, exists_eq_left', Bool.or_eq_true, or_comm]
    · rename_i hnone
      simp only [hnone, reduceCtorEq, false_and, exists_false, or_false]

lemma Rewritten.selectHere (h : Rewritten a b) (hb : selectHere b = true) :
    selectHere a = true := by
  obtain ⟨rest, hrest⟩ := Option.isSome_iff_exists.mp hb
  rcases h.dropWord?_of_after (by decide) hrest with ⟨rest₀, hrest₀, -⟩ | ⟨hlast, -⟩
  · exact Option.isSome_iff_exists.mpr ⟨rest₀, hrest₀⟩
  · exact absurd hlast (by decide)

lemma Rewritten.unionSelectHere (h : Rewritten a b) (hb : unionSelectHere b = true) :
    unionSelectHere a = true := by
  obtain ⟨rest, hrest, hselect⟩ := unionSelectHere_iff.mp hb
  obtain ⟨rest₀, hrest₀, hrewritten⟩ := h.dropWord?_dropBlanks? (by decide) hrest
  refine unionSelectHere_iff.mpr ⟨rest₀, hrest₀, ?_⟩
  rcases hselect with hselect | ⟨rest', hall, hselect⟩
  · exact Or.inl (hrewritten.selectHere hselect)
  · obtain ⟨rest₁, hall₁, hrewritten₁⟩ := hrewritten.dropWord?_dropBlanks? (by decide) hall
    exact Or.inr ⟨rest₁, hall₁, hrewritten₁.selectHere hselect⟩

/-- `UNION` begins with its first two letters. -/
lemma unionSelectHere_cons {c : Char} {cs : List Char} (h : unionSelectHere (c :: cs) = true) :
    Text.foldLetter c = 'u' ∧ ∃ d ds, cs = d :: ds ∧ Text.foldLetter d = 'n' := by
  obtain ⟨rest, hrest, -⟩ := unionSelectHere_iff.mp h
  obtain ⟨r, hr, -⟩ := Option.bind_eq_some_iff.mp hrest
  obtain ⟨used, hused, hfold⟩ := Text.dropWord?_eq_some_iff.mp hr
  rcases used with _ | ⟨u, _ | ⟨v, us⟩⟩
  · simp at hfold
  · simp at hfold
  · obtain ⟨hu, hv, -⟩ : Text.foldLetter u = 'u' ∧ Text.foldLetter v = 'n' ∧ _ := by
      simpa using hfold
    obtain ⟨rfl, rfl⟩ : c = u ∧ cs = v :: (us ++ r) := by simpa using hused
    exact ⟨hu, v, us ++ r, rfl, hv⟩

lemma anyEnd_append_of_forall_ne_u (xs : List Char) (h : ∀ c ∈ xs, Text.foldLetter c ≠ 'u')
    (hb : anyEnd unionSelectHere (xs ++ b) = true) : anyEnd unionSelectHere b = true := by
  induction xs with
  | nil => exact hb
  | cons c cs ih =>
    obtain ⟨hc, hcs⟩ := List.forall_mem_cons.mp h
    rw [List.cons_append, anyEnd, Bool.or_eq_true] at hb
    rcases hb with hhere | hlater
    · exact absurd (unionSelectHere_cons hhere).1 hc
    · exact ih hcs hlater

/-- No `UNION SELECT` begins in the place of a reference. -/
lemma Placed.anyEnd_unionSelectHere {placed : List Char} (h : Placed placed)
    (hb : anyEnd unionSelectHere (placed ++ b) = true) : anyEnd unionSelectHere b = true := by
  cases h with
  | @position d ds hds =>
    refine anyEnd_append_of_forall_ne_u ('$' :: d :: ds) ?_ hb
    refine List.forall_mem_cons.mpr ⟨by decide, fun c hc => ?_⟩
    rw [foldLetter_of_isDigit (hds c hc)]
    rintro rfl
    exact absurd (hds 'u' hc) (by decide)
  | null =>
    have hrest : anyEnd unionSelectHere ('U' :: (['L', 'L'] ++ b)) = true :=
      anyEnd_append_of_forall_ne_u ['N'] (by decide) hb
    rw [anyEnd, Bool.or_eq_true] at hrest
    rcases hrest with hhere | hlater
    · -- behind the `U` of a `NULL` stands an `L`
      obtain ⟨-, d, ds, hds, hd⟩ := unionSelectHere_cons hhere
      obtain ⟨rfl, -⟩ := by simpa using hds
      exact absurd hd (by decide)
    · exact anyEnd_append_of_forall_ne_u ['L', 'L'] (by decide) hlater

lemma anyEnd_append {p : List Char → Bool} (xs : List Char) (h : anyEnd p a = true) :
    anyEnd p (xs ++ a) = true := by
  induction xs with
  | nil => exact h
  | cons c cs ih => simp [anyEnd, ih]

/-- No `UNION SELECT` comes about. -/
lemma Rewritten.anyEnd_unionSelectHere (h : Rewritten a b)
    (hb : anyEnd Sql.unionSelectHere b = true) : anyEnd Sql.unionSelectHere a = true := by
  induction h with
  | nil => exact hb
  | @keep a b c h ih =>
    rw [anyEnd, Bool.or_eq_true] at hb ⊢
    exact hb.imp (Rewritten.keep c h).unionSelectHere ih
  | place _ hplaced _ ih => exact anyEnd_append _ (ih (hplaced.anyEnd_unionSelectHere hb))

/-! ## Clean texts -/

/-- A clean text stays clean. -/
theorem Clean.rewritten (ha : Clean a) (h : Rewritten a b) : Clean b where
  harmless := h.harmless ha.harmless
  reads := h.isReadStatement ha.reads
  balanced := by
    rw [h.count_eq fun hi => hi.ne_open rfl, h.count_eq fun hi => hi.ne_close rfl]
    exact ha.balanced
  single := by
    have hcount := h.count_eq (c := ';') fun hi => hi.ne_semicolon rfl
    rw [← List.count_eq_zero, hcount, List.count_eq_zero]
    exact ha.single
  closed := by
    rw [h.hasOpener_iff]
    exact ha.closed
  no_union := by
    rw [← Bool.not_eq_true]
    intro hb
    simpa [ha.no_union] using h.anyEnd_unionSelectHere hb

/-- A character that is not inert ends the text only if it did before. -/
lemma Rewritten.getLast?_of_after (h : Rewritten a b) {c : Char} (hc : ¬ Inert c)
    (hb : b.getLast? = some c) : a.getLast? = some c := by
  have hempty : ∀ {a b : List Char}, Rewritten a b → b.getLast? = none → a = [] := by
    intro a b h hnone
    have := h.isEmpty_eq
    rw [List.getLast?_eq_none_iff] at hnone
    simpa [hnone] using this
  induction h with
  | nil => exact hb
  | @keep a b d h ih =>
    rw [← List.singleton_append, List.getLast?_append] at hb ⊢
    rcases hlast : b.getLast? with _ | e
    · rw [hempty h hlast]
      simpa [hlast] using hb
    · obtain rfl : e = c := by simpa [hlast] using hb
      rw [ih hlast]
      rfl
  | @place a b name placed hname hplaced h ih =>
    rw [List.getLast?_append] at hb ⊢
    rcases hlast : b.getLast? with _ | e
    · have hmem : c ∈ placed := List.mem_of_getLast? (by simpa [hlast] using hb)
      exact absurd (hplaced.inert c hmem) hc
    · obtain rfl : e = c := by simpa [hlast] using hb
      rw [ih hlast]
      rfl

/-- A query that is accepted is accepted also with its references replaced. -/
theorem Rewritten.accepts {sql : List Char} (h : Rewritten (stripTerminator sql) b)
    (hsql : accepts sql = true) : Sql.accepts b = true := by
  have hsame := stripped_stripTerminator sql
  have hstripped : Stripped b := by
    refine ⟨fun c hc => ?_, fun c hc => ?_⟩
    · by_contra hblank
      have hinert := not_inert_of_isBlank (Bool.not_eq_false _ ▸ hblank)
      exact hblank (hsame.head_ok c ((h.head?_iff hinert).mpr hc))
    · by_cases hinert : Inert c
      · exact ⟨hinert.ne_semicolon, hinert.not_blank⟩
      · exact hsame.last_ok c (h.getLast?_of_after hinert hc)
  exact hstripped.accepts ((clean_of_accepts hsql).rewritten h.normalize)

end RevenueDesk.Sql
