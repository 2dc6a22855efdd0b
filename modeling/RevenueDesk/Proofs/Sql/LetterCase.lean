/-
# Letters in either case

A change of the characters of a text is `Unseen` by the guard if it leaves alone what it asks
about a single character: whether it is blank or part of a word, what it folds onto, its
capital, and whether it is one of the few characters that it looks for (`sought`).  Every step
of the guard then commutes with the change:

* `Unseen.normalize_map`: the normal form is changed in the same way;
* `Unseen.refusal?_map`: the answer is the same, wording included.

Writing the ASCII letters small is such a change (`unseen_toLower`), so two texts that differ
only in the case of letters get the same answer (`refusal?_eq_of_toLower_eq`).
-/
import RevenueDesk.Proofs.Sql.Acceptance

namespace RevenueDesk.Text

/-! ## Texts whose characters are changed -/

section Map

variable {p : Char → Bool} {f : Char → Char} (hp : ∀ c, p (f c) = p c)
include hp

lemma dropWhile_map (cs : List Char) : (cs.map f).dropWhile p = (cs.dropWhile p).map f := by
  rw [List.dropWhile_map, show p ∘ f = p from funext hp]

lemma dropEndWhile_map (cs : List Char) :
    dropEndWhile p (cs.map f) = (dropEndWhile p cs).map f := by
  rw [dropEndWhile, dropEndWhile, ← List.map_reverse, dropWhile_map hp, List.map_reverse]

/-- The separators stay, so the parts are the same. -/
lemma splitWhere_map (cs : List Char) :
    splitWhere p (cs.map f) = (splitWhere p cs).map (List.map f) := by
  induction cs with
  | nil => rfl
  | cons c cs ih =>
    obtain ⟨w, ws, hcs⟩ := List.exists_cons_of_ne_nil (splitWhere_ne_nil p cs)
    rw [List.map_cons, splitWhere_cons, splitWhere_cons, ih, hcs, List.map_cons, splitStep,
      splitStep, hp]
    split <;> rfl

lemma runs_map (cs : List Char) : runs p (cs.map f) = (runs p cs).map (List.map f) := by
  rw [runs, runs, splitWhere_map hp, List.filter_map]
  congr 2
  funext w
  simp

end Map

lemma spaced_map {f : Char → Char} (hspace : f ' ' = ' ') (ws : List (List Char)) :
    spaced (ws.map (List.map f)) = (spaced ws).map f := by
  induction ws with
  | nil => rfl
  | cons w ws ih =>
    cases ws with
    | nil => simp
    | cons v vs =>
      rw [List.map_cons, List.map_cons, spaced_cons_cons, spaced_cons_cons, ← List.map_cons, ih,
        List.map_append, List.map_cons, hspace]

section Fold

variable {f : Char → Char} (hf : ∀ c, foldLetter (f c) = foldLetter c)
include hf

lemma sameWord_map (word : String) (cs : List Char) :
    sameWord word (cs.map f) = sameWord word cs := by
  rw [sameWord, sameWord, List.map_map, show foldLetter ∘ f = foldLetter from funext hf]

lemma dropWord?_map (word cs : List Char) :
    dropWord? word (cs.map f) = (dropWord? word cs).map (List.map f) := by
  induction word generalizing cs with
  | nil => rfl
  | cons w ws ih =>
    cases cs with
    | nil => rfl
    | cons c cs =>
      rw [List.map_cons, dropWord?, dropWord?, hf, ih]
      split <;> rfl

end Fold

end RevenueDesk.Text

namespace RevenueDesk.Sql

/-- The characters that the guard looks for one by one. -/
def sought : List Char := ['-', '\n', '/', '*', '(', ')', ';', ' ']

/-- A change of characters that the guard does not see. -/
structure Unseen (f : Char → Char) : Prop where
  isBlank_eq : ∀ c, Text.isBlank (f c) = Text.isBlank c
  isWord_eq : ∀ c, Text.isWord (f c) = Text.isWord c
  foldLetter_eq : ∀ c, Text.foldLetter (f c) = Text.foldLetter c
  upperLetter_eq : ∀ c, Text.upperLetter (f c) = Text.upperLetter c
  mark_iff : ∀ m ∈ sought, ∀ c, f c = m ↔ c = m

lemma anyEnd_map {f : Char → Char} {p : List Char → Bool} (hp : ∀ cs, p (cs.map f) = p cs)
    (cs : List Char) : anyEnd p (cs.map f) = anyEnd p cs := by
  induction cs with
  | nil => rfl
  | cons c cs ih => rw [List.map_cons, anyEnd, ih, ← List.map_cons, hp, anyEnd]

section Unseen

variable {f : Char → Char} (hf : Unseen f)
include hf

lemma Unseen.map_mark {m : Char} (hm : m ∈ sought) : f m = m := (hf.mark_iff m hm m).mpr rfl

lemma Unseen.head?_map_iff {m : Char} (hm : m ∈ sought) (cs : List Char) :
    (cs.map f).head? = some m ↔ cs.head? = some m := by
  cases cs with
  | nil => rfl
  | cons c cs => simpa using hf.mark_iff m hm c

/-! ## The normal form -/

lemma Unseen.stripTerminator_map (cs : List Char) :
    stripTerminator (cs.map f) = (stripTerminator cs).map f := by
  have hend : ∀ c, (f c == ';' || Text.isBlank (f c)) = (c == ';' || Text.isBlank c) := by
    intro c
    rw [hf.isBlank_eq, Bool.eq_iff_iff]
    simp [hf.mark_iff ';' (by decide) c]
  rw [stripTerminator, Text.trim, Text.dropWhile_map hf.isBlank_eq,
    Text.dropEndWhile_map hf.isBlank_eq, Text.dropEndWhile_map hend]
  rfl

lemma Unseen.dropLineComments_map (inside : Bool) (cs : List Char) :
    dropLineComments inside (cs.map f) = (dropLineComments inside cs).map f := by
  induction cs generalizing inside with
  | nil => simp
  | cons c cs ih =>
    rw [List.map_cons]
    cases inside with
    | true =>
      rw [dropLineComments_inside, dropLineComments_inside, ih, ih]
      simp only [hf.mark_iff '\n' (by decide) c]
      split
      · rw [List.map_cons, hf.map_mark (by decide)]
      · rfl
    | false =>
      rw [dropLineComments_outside, dropLineComments_outside, ih, ih]
      simp only [hf.mark_iff '-' (by decide) c, hf.head?_map_iff (by decide : '-' ∈ sought)]
      split <;> rfl

lemma Unseen.closeComment?_map (cs : List Char) :
    closeComment? (cs.map f) =
      (closeComment? cs).map fun (inner, rest) => (inner.map f, rest.map f) := by
  induction cs with
  | nil => rfl
  | cons c cs ih =>
    rw [List.map_cons, closeComment?_cons, closeComment?_cons, ih]
    simp only [hf.mark_iff '*' (by decide) c, hf.head?_map_iff (by decide : '/' ∈ sought)]
    split
    · simp only [Option.map_some, List.map_nil, List.map_tail]
    · cases closeComment? cs <;> rfl

lemma Unseen.dropBlockComments_map (cs : List Char) :
    dropBlockComments (cs.map f) = (dropBlockComments cs).map f := by
  have hslash : f '/' = '/' := hf.map_mark (by decide)
  have hstar : f '*' = '*' := hf.map_mark (by decide)
  fun_induction dropBlockComments cs with
  | case1 => simp
  | case2 c => simp [dropBlockComments]
  | case3 c d cs hopen inner rest hclose ih =>
    obtain ⟨rfl, rfl⟩ := hopen
    have hmap := hf.closeComment?_map cs
    rw [hclose] at hmap
    rw [List.map_cons, List.map_cons, hslash, hstar, dropBlockComments_of_closed hmap, ih]
  | case4 c d cs hopen hclose =>
    obtain ⟨rfl, rfl⟩ := hopen
    have hmap := hf.closeComment?_map cs
    rw [hclose] at hmap
    rw [List.map_cons, List.map_cons, hslash, hstar, dropBlockComments_of_open hmap]
  | case5 c d cs hopen ih =>
    have hopen' : ¬ (f c = '/' ∧ ((d :: cs).map f).head? = some '*') := by
      rwa [hf.mark_iff '/' (by decide), hf.head?_map_iff (by decide), List.head?_cons,
        Option.some_inj]
    rw [List.map_cons, dropBlockComments_cons_of_ne hopen', ih, List.map_cons]

/-- The normal form of a changed text is the normal form of the text, changed. -/
theorem Unseen.normalize_map (cs : List Char) : normalize (cs.map f) = (normalize cs).map f := by
  have hspace : f ' ' = ' ' := hf.map_mark (by decide)
  rw [normalize, hf.dropLineComments_map, hf.dropBlockComments_map, Text.pieces,
    Text.runs_map hf.isBlank_eq, Text.spaced_map hspace]
  rfl

/-! ## What is looked for -/

lemma Unseen.dangerousWord?_map (cs : List Char) :
    dangerousWord? (cs.map f) = (dangerousWord? cs).map (List.map f) := by
  have hword : ∀ c, (!Text.isWord (f c)) = !Text.isWord c := fun c => by rw [hf.isWord_eq]
  rw [dangerousWord?, Text.words, Text.runs_map hword, List.find?_map]
  simp only [Function.comp_def, Text.sameWord_map hf.foldLetter_eq]
  rfl

lemma Unseen.upper_map (cs : List Char) : Text.upper (cs.map f) = Text.upper cs := by
  rw [Text.upper, Text.upper, List.map_map,
    show Text.upperLetter ∘ f = Text.upperLetter from funext hf.upperLetter_eq]

lemma Unseen.dropBlanks?_map (cs : List Char) :
    dropBlanks? (cs.map f) = (dropBlanks? cs).map (List.map f) := by
  cases cs with
  | nil => rfl
  | cons c cs =>
    rw [List.map_cons, dropBlanks?, dropBlanks?, hf.isBlank_eq, Text.dropWhile_map hf.isBlank_eq]
    split <;> rfl

/-- A word with blanks behind it stands at the beginning of both texts or of none. -/
lemma Unseen.dropWord?_dropBlanks?_map (word cs : List Char) :
    (Text.dropWord? word (cs.map f)).bind dropBlanks? =
      ((Text.dropWord? word cs).bind dropBlanks?).map (List.map f) := by
  rw [Text.dropWord?_map hf.foldLetter_eq]
  cases Text.dropWord? word cs with
  | none => rfl
  | some rest => exact hf.dropBlanks?_map rest

lemma Unseen.isReadStatement_map (cs : List Char) :
    isReadStatement (cs.map f) = isReadStatement cs := by
  have hbegins : ∀ word, beginsWith word (cs.map f) = beginsWith word cs := fun word => by
    rw [beginsWith, hf.dropWord?_dropBlanks?_map, Option.isSome_map, beginsWith]
  rw [isReadStatement, hbegins, hbegins, isReadStatement]

lemma Unseen.count_map {m : Char} (hm : m ∈ sought) (cs : List Char) :
    (cs.map f).count m = cs.count m := by
  rw [List.count_eq_countP, List.count_eq_countP, List.countP_map]
  congr 1
  funext c
  rw [Function.comp_apply, Bool.eq_iff_iff]
  simpa using hf.mark_iff m hm c

lemma Unseen.commentHere_map (cs : List Char) : commentHere (cs.map f) = commentHere cs := by
  rw [Bool.eq_iff_iff, commentHere_iff, commentHere_iff]
  cases cs with
  | nil => rfl
  | cons c cs =>
    have hstar := hf.head?_map_iff (m := '*') (by decide) cs
    simp only [List.head?_eq_some_iff] at hstar
    simp only [List.map_cons, List.cons.injEq, exists_and_left, hf.mark_iff '/' (by decide) c,
      hstar]

lemma Unseen.selectHere_map (cs : List Char) : selectHere (cs.map f) = selectHere cs := by
  rw [selectHere, Text.dropWord?_map hf.foldLetter_eq, Option.isSome_map, selectHere]

lemma Unseen.unionSelectHere_map (cs : List Char) :
    unionSelectHere (cs.map f) = unionSelectHere cs := by
  rw [unionSelectHere, unionSelectHere, hf.dropWord?_dropBlanks?_map]
  cases (Text.dropWord? "union".toList cs).bind dropBlanks? with
  | none => rfl
  | some rest =>
    simp only [Option.map_some, hf.dropWord?_dropBlanks?_map, hf.selectHere_map]
    cases (Text.dropWord? "all".toList rest).bind dropBlanks? with
    | none => rfl
    | some rest' => simp only [Option.map_some, hf.selectHere_map]

/-! ## The answer -/

lemma Unseen.refusalOfNormal_map (cs : List Char) :
    refusalOfNormal (cs.map f) = refusalOfNormal cs := by
  have hsemicolon : (cs.map f).contains ';' = cs.contains ';' := by
    rw [Bool.eq_iff_iff, List.contains_iff_mem, List.contains_iff_mem, ← List.count_pos_iff,
      hf.count_map (by decide), List.count_pos_iff]
  rw [refusalOfNormal, refusalOfNormal, hf.dangerousWord?_map, hf.isReadStatement_map,
    hf.count_map (by decide), hf.count_map (by decide), hsemicolon,
    anyEnd_map hf.commentHere_map, anyEnd_map hf.unionSelectHere_map]
  cases dangerousWord? cs with
  | none => rfl
  | some word => simp only [Option.map_some, hf.upper_map]

/-- The guard gives a changed text the same answer. -/
theorem Unseen.refusal?_map (cs : List Char) : refusal? (cs.map f) = refusal? cs := by
  have hblank : (cs.map f).all Text.isBlank = cs.all Text.isBlank := by
    rw [List.all_map, show Text.isBlank ∘ f = Text.isBlank from funext hf.isBlank_eq]
  rw [refusal?, refusal?, hblank, hf.stripTerminator_map, hf.normalize_map,
    hf.refusalOfNormal_map]

end Unseen

/-! ## Small letters -/

/-- What holds of the ASCII characters, and of those whose small letter they are themselves, holds
of all. -/
lemma forall_of_ascii {P : Char → Prop} (hascii : ∀ n < 128, P (Char.ofNat n))
    (hother : ∀ c : Char, c.toLower = c → P c) (c : Char) : P c := by
  by_cases hc : c.toNat < 128
  · simpa using hascii c.toNat hc
  · refine hother c (dif_neg ?_)
    rintro ⟨-, hle⟩
    rw [UInt32.le_iff_toNat_le, Char.toNat_val, Char.toNat_val] at hle
    exact hc (hle.trans_lt (by decide))

/-- The guard does not see whether ASCII letters are small. -/
theorem unseen_toLower : Unseen Char.toLower where
  isBlank_eq := forall_of_ascii (by decide) fun c hc => by rw [hc]
  isWord_eq := forall_of_ascii (by decide) fun c hc => by rw [hc]
  foldLetter_eq := forall_of_ascii (by decide) fun c hc => by rw [hc]
  upperLetter_eq := forall_of_ascii (by decide) fun c hc => by rw [hc]
  mark_iff m hm c :=
    forall_of_ascii (P := fun c => ∀ m ∈ sought, c.toLower = m ↔ c = m) (by decide)
      (fun c hc m _ => by rw [hc]) c m hm

/-- Texts that differ only in the case of ASCII letters get the same answer. -/
theorem refusal?_eq_of_toLower_eq {sql sql' : List Char}
    (h : sql'.map Char.toLower = sql.map Char.toLower) : refusal? sql' = refusal? sql := by
  rw [← unseen_toLower.refusal?_map sql', h, unseen_toLower.refusal?_map]

end RevenueDesk.Sql
