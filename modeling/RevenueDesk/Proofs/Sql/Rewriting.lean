/-
# Texts with their references replaced

Putting parameters in place replaces some references of a text by positions or by `NULL` and
leaves all the rest as it is.  `Rewritten` says this of two texts, without saying which
references are replaced or how the text is cut into tokens.

What is replaced and what replaces it hold no character that means anything to the guard, so
it reads both texts alike:

* `Rewritten.normalize`: the normal form is rewritten in the same way;
* `rewritten_of_bind`: putting parameters in place rewrites the text.
-/
import RevenueDesk.Proofs.Sql.Acceptance
import RevenueDesk.Proofs.Sql.Cutting
import RevenueDesk.Sql.Prepared

namespace RevenueDesk.Sql

/-! ## The relation -/

/-- What may be written behind the colon of a reference. -/
def IsName (name : List Char) : Prop := ∀ c ∈ name, isNameChar c = true

/-- What is written in the place of a reference. -/
inductive Placed : List Char → Prop where
  | null : Placed ['N', 'U', 'L', 'L']
  | position {d : Char} {ds : List Char} (hds : ∀ c ∈ d :: ds, Text.isDigit c = true) :
      Placed ('$' :: d :: ds)

/-- The second text is the first one with some of its references replaced. -/
inductive Rewritten : List Char → List Char → Prop where
  | nil : Rewritten [] []
  | keep {a b : List Char} (c : Char) : Rewritten a b → Rewritten (c :: a) (c :: b)
  | place {a b name placed : List Char} : IsName name → Placed placed → Rewritten a b →
      Rewritten ((':' :: name) ++ a) (placed ++ b)

lemma Rewritten.refl (a : List Char) : Rewritten a a := by
  induction a with
  | nil => exact .nil
  | cons c a ih => exact .keep c ih

lemma Rewritten.append {a b a' b' : List Char} (h : Rewritten a b) (h' : Rewritten a' b') :
    Rewritten (a ++ a') (b ++ b') := by
  induction h with
  | nil => exact h'
  | keep c _ ih => exact .keep c ih
  | place hname hplaced _ ih =>
    rw [List.append_assoc, List.append_assoc]
    exact .place hname hplaced ih

/-! ## Characters without a meaning -/

/-- A character that the guard passes over: it is no part of a comment mark, it is no
parenthesis and no semicolon, and it is not blank. -/
structure Inert (c : Char) : Prop where
  ne_dash : c ≠ '-'
  ne_newline : c ≠ '\n'
  ne_slash : c ≠ '/'
  ne_star : c ≠ '*'
  ne_open : c ≠ '('
  ne_close : c ≠ ')'
  ne_semicolon : c ≠ ';'
  not_blank : Text.isBlank c = false

lemma isAsciiWord_of_isNameChar {c : Char} (h : isNameChar c = true) :
    Text.isAsciiWord c = true := by
  simp only [isNameChar, isNameStart, Text.isSmall, Text.isCapital, Text.isDigit,
    Bool.or_eq_true] at h
  simp only [Text.isAsciiWord, Bool.or_eq_true]
  tauto

lemma isAsciiWord_of_isDigit {c : Char} (h : Text.isDigit c = true) :
    Text.isAsciiWord c = true := by
  refine isAsciiWord_of_isNameChar ?_
  simp [isNameChar, h]

lemma inert_of_isAsciiWord {c : Char} (h : Text.isAsciiWord c = true) : Inert c := by
  have hne : ∀ d : Char, Text.isAsciiWord d = false → c ≠ d := by
    rintro d hd rfl
    simp [hd] at h
  refine ⟨hne _ rfl, hne _ rfl, hne _ rfl, hne _ rfl, hne _ rfl, hne _ rfl, hne _ rfl, ?_⟩
  by_contra hblank
  have hbounds := Text.toNat_of_isAsciiWord h
  have hc := Text.toNat_of_isBlank (by simpa using hblank)
  simp only [Text.wideBlanks, List.mem_cons, List.not_mem_nil, or_false] at hc
  omega

lemma inert_colon : Inert ':' :=
  ⟨by decide, by decide, by decide, by decide, by decide, by decide, by decide, by decide⟩

lemma inert_dollar : Inert '$' :=
  ⟨by decide, by decide, by decide, by decide, by decide, by decide, by decide, by decide⟩

lemma IsName.inert {name : List Char} (h : IsName name) : ∀ c ∈ ':' :: name, Inert c :=
  List.forall_mem_cons.mpr
    ⟨inert_colon, fun c hc => inert_of_isAsciiWord (isAsciiWord_of_isNameChar (h c hc))⟩

lemma Placed.inert {placed : List Char} (h : Placed placed) : ∀ c ∈ placed, Inert c := by
  cases h with
  | null =>
    intro c hc
    refine inert_of_isAsciiWord ?_
    revert c
    decide
  | position hds =>
    exact List.forall_mem_cons.mpr
      ⟨inert_dollar, fun c hc => inert_of_isAsciiWord (isAsciiWord_of_isDigit (hds c hc))⟩

lemma Placed.ne_nil {placed : List Char} (h : Placed placed) : placed ≠ [] := by
  cases h <;> simp

/-- A character that is no part of a reference, and of nothing that is written for one. -/
structure Foreign (c : Char) : Prop where
  not_word : Text.isAsciiWord c = false
  ne_colon : c ≠ ':'
  ne_dollar : c ≠ '$'

lemma foreign_of_not_inert {c : Char} (h : ¬ Inert c) : Foreign c where
  not_word := Bool.eq_false_iff.mpr (mt inert_of_isAsciiWord h)
  ne_colon hc := h (hc ▸ inert_colon)
  ne_dollar hc := h (hc ▸ inert_dollar)

lemma IsName.not_mem {name : List Char} (h : IsName name) {c : Char} (hc : Foreign c) :
    c ∉ ':' :: name := by
  rintro hmem
  rcases List.mem_cons.mp hmem with hcolon | hname
  · exact hc.ne_colon hcolon
  · simpa [hc.not_word] using isAsciiWord_of_isNameChar (h c hname)

lemma Placed.not_mem {placed : List Char} (h : Placed placed) {c : Char} (hc : Foreign c) :
    c ∉ placed := by
  cases h with
  | null =>
    have hword : ∀ c ∈ ['N', 'U', 'L', 'L'], Text.isAsciiWord c = true := by decide
    exact fun hmem => by simpa [hc.not_word] using hword c hmem
  | position hds =>
    rintro hmem
    rcases List.mem_cons.mp hmem with hdollar | hdigit
    · exact hc.ne_dollar hdollar
    · simpa [hc.not_word] using isAsciiWord_of_isDigit (hds c hdigit)

/-- A foreign character begins the one text exactly if it begins the other. -/
lemma Rewritten.head?_iff_of_foreign {a b : List Char} (h : Rewritten a b) {c : Char}
    (hc : Foreign c) : a.head? = some c ↔ b.head? = some c := by
  cases h with
  | nil => rfl
  | keep d _ => simp
  | @place a b name placed hname hplaced _ =>
    obtain ⟨d, ds, rfl⟩ := List.exists_cons_of_ne_nil hplaced.ne_nil
    have hcolon : ':' ≠ c := Ne.symm hc.ne_colon
    have hd : d ≠ c := fun h => hplaced.not_mem hc (h ▸ List.mem_cons_self)
    simp [hcolon, hd]

/-- Two rewritten texts that begin with a foreign character are rewritten behind it. -/
lemma Rewritten.of_cons_of_foreign {c : Char} {a b : List Char} (h : Rewritten (c :: a) b)
    (hc : Foreign c) : ∃ b', b = c :: b' ∧ Rewritten a b' := by
  generalize ha : c :: a = a₀ at h
  cases h with
  | nil => simp at ha
  | @keep a' b' d h' =>
    obtain ⟨rfl, rfl⟩ : c = d ∧ a = a' := by simpa using ha
    exact ⟨b', rfl, h'⟩
  | place _ _ _ =>
    obtain ⟨rfl, -⟩ := by simpa using ha
    exact absurd rfl hc.ne_colon

/-- A character that is not inert begins the one text exactly if it begins the other. -/
lemma Rewritten.head?_iff {a b : List Char} (h : Rewritten a b) {c : Char} (hc : ¬ Inert c) :
    a.head? = some c ↔ b.head? = some c :=
  h.head?_iff_of_foreign (foreign_of_not_inert hc)

/-- Two rewritten texts that begin with a character that is not inert are rewritten behind
it. -/
lemma Rewritten.of_cons {c : Char} {a b : List Char} (h : Rewritten (c :: a) b) (hc : ¬ Inert c) :
    ∃ b', b = c :: b' ∧ Rewritten a b' :=
  h.of_cons_of_foreign (foreign_of_not_inert hc)

/-! ## Normal forms -/

/-- Line comments are the same. -/
lemma Rewritten.dropLineComments {a b : List Char} (h : Rewritten a b) (inside : Bool) :
    Rewritten (dropLineComments inside a) (dropLineComments inside b) := by
  induction h generalizing inside with
  | nil => simpa using Rewritten.nil
  | @keep a b c h ih =>
    cases inside with
    | true =>
      rw [dropLineComments_inside, dropLineComments_inside]
      split
      · exact .keep '\n' (ih false)
      · exact ih true
    | false =>
      have hhead : a.head? = some '-' ↔ b.head? = some '-' :=
        h.head?_iff fun hi => hi.ne_dash rfl
      rw [dropLineComments_outside, dropLineComments_outside]
      simp only [hhead]
      split
      · exact ih true
      · exact .keep c (ih false)
  | @place a b name placed hname hplaced h ih =>
    cases inside with
    | true =>
      rw [dropLineComments_append_of_no_newline fun c hc => (hname.inert c hc).ne_newline,
        dropLineComments_append_of_no_newline fun c hc => (hplaced.inert c hc).ne_newline]
      exact ih true
    | false =>
      rw [dropLineComments_append_of_no_dash fun c hc => (hname.inert c hc).ne_dash,
        dropLineComments_append_of_no_dash fun c hc => (hplaced.inert c hc).ne_dash]
      exact .place hname hplaced (ih false)

/-- Comments are closed at the same places. -/
lemma Rewritten.closeComment? {a b : List Char} (h : Rewritten a b) :
    (closeComment? a = none ∧ closeComment? b = none) ∨
      ∃ i r i' r', closeComment? a = some (i, r) ∧ closeComment? b = some (i', r') ∧
        Rewritten r r' := by
  induction h with
  | nil => exact Or.inl ⟨rfl, rfl⟩
  | @keep a b c h ih =>
    have hhead : a.head? = some '/' ↔ b.head? = some '/' :=
      h.head?_iff fun hi => hi.ne_slash rfl
    rw [closeComment?_cons, closeComment?_cons]
    simp only [hhead]
    split
    · -- no reference is replaced between the star and the slash
      rename_i hc
      obtain ⟨ds, rfl⟩ := List.head?_eq_some_iff.mp (hhead.mpr hc.2)
      obtain ⟨ds', rfl, h'⟩ := h.of_cons fun hi => hi.ne_slash rfl
      exact Or.inr ⟨[], ds, [], ds', rfl, rfl, h'⟩
    · rcases ih with ⟨ha, hb⟩ | ⟨i, r, i', r', ha, hb, hr⟩
      · exact Or.inl ⟨by simp [ha], by simp [hb]⟩
      · exact Or.inr ⟨c :: i, r, c :: i', r', by simp [ha], by simp [hb], hr⟩
  | @place a b name placed hname hplaced h ih =>
    rw [closeComment?_append_of_no_star fun c hc => (hname.inert c hc).ne_star,
      closeComment?_append_of_no_star fun c hc => (hplaced.inert c hc).ne_star]
    rcases ih with ⟨ha, hb⟩ | ⟨i, r, i', r', ha, hb, hr⟩
    · exact Or.inl ⟨by simp [ha], by simp [hb]⟩
    · exact Or.inr ⟨(':' :: name) ++ i, r, placed ++ i', r', by simp [ha], by simp [hb], hr⟩

/-- Block comments are the same. -/
lemma Rewritten.dropBlockComments {a b : List Char} (h : Rewritten a b) :
    Rewritten (dropBlockComments a) (dropBlockComments b) := by
  -- on the length, as a comment that is closed is passed over at once
  induction hn : a.length using Nat.strongRecOn generalizing a b with
  | _ n ih =>
    cases h with
    | nil => simpa using Rewritten.nil
    | @keep a b c h =>
      by_cases hc : c = '/' ∧ a.head? = some '*'
      · obtain ⟨rfl, hhead⟩ := hc
        obtain ⟨ds, rfl⟩ := List.head?_eq_some_iff.mp hhead
        obtain ⟨ds', rfl, h'⟩ := h.of_cons fun hi => hi.ne_star rfl
        rcases h'.closeComment? with ⟨ha, hb⟩ | ⟨i, r, i', r', ha, hb, hr⟩
        · rw [dropBlockComments_of_open ha, dropBlockComments_of_open hb]
          exact .keep '/' h
        · rw [dropBlockComments_of_closed ha, dropBlockComments_of_closed hb]
          have hlen := congrArg List.length (closeComment?_eq ha)
          simp only [List.length_append, List.length_cons] at hlen hn
          exact ih r.length (by omega) hr rfl
      · rw [dropBlockComments_cons_of_ne hc,
          dropBlockComments_cons_of_ne (by rwa [← h.head?_iff fun hi => hi.ne_star rfl])]
        simp only [List.length_cons] at hn
        exact .keep c (ih a.length (by omega) h rfl)
    | @place a b name placed hname hplaced h =>
      rw [dropBlockComments_append_of_no_slash fun c hc => (hname.inert c hc).ne_slash,
        dropBlockComments_append_of_no_slash fun c hc => (hplaced.inert c hc).ne_slash]
      simp only [List.length_append, List.length_cons] at hn
      exact .place hname hplaced (ih a.length (by omega) h rfl)

/-- The pieces between blanks are rewritten one by one. -/
lemma Rewritten.splitWhere_isBlank {a b : List Char} (h : Rewritten a b) :
    List.Forall₂ Rewritten (Text.splitWhere Text.isBlank a) (Text.splitWhere Text.isBlank b) := by
  induction h with
  | nil => exact .cons .nil .nil
  | @keep a b c h ih =>
    obtain ⟨u, us, ha⟩ := List.exists_cons_of_ne_nil (Text.splitWhere_ne_nil Text.isBlank a)
    obtain ⟨v, vs, hb⟩ := List.exists_cons_of_ne_nil (Text.splitWhere_ne_nil Text.isBlank b)
    rw [ha, hb] at ih
    obtain ⟨hhead, htail⟩ := List.forall₂_cons.mp ih
    rw [Text.splitWhere_cons, Text.splitWhere_cons, ha, hb]
    unfold Text.splitStep
    split
    · exact .cons .nil ih
    · exact .cons (.keep c hhead) htail
  | @place a b name placed hname hplaced h ih =>
    obtain ⟨u, us, ha⟩ := List.exists_cons_of_ne_nil (Text.splitWhere_ne_nil Text.isBlank a)
    obtain ⟨v, vs, hb⟩ := List.exists_cons_of_ne_nil (Text.splitWhere_ne_nil Text.isBlank b)
    rw [ha, hb] at ih
    obtain ⟨hhead, htail⟩ := List.forall₂_cons.mp ih
    rw [Text.splitWhere_append_of_forall_not (fun c hc => (hname.inert c hc).not_blank) ha,
      Text.splitWhere_append_of_forall_not (fun c hc => (hplaced.inert c hc).not_blank) hb]
    exact .cons (.place hname hplaced hhead) htail

lemma Rewritten.isEmpty_eq {a b : List Char} (h : Rewritten a b) : a.isEmpty = b.isEmpty := by
  cases h with
  | nil => rfl
  | keep c _ => rfl
  | place _ hplaced _ =>
    obtain ⟨d, ds, rfl⟩ := List.exists_cons_of_ne_nil hplaced.ne_nil
    rfl

lemma rewritten_filter_nonempty {us vs : List (List Char)} (h : List.Forall₂ Rewritten us vs) :
    List.Forall₂ Rewritten (us.filter (!·.isEmpty)) (vs.filter (!·.isEmpty)) := by
  induction h with
  | nil => exact .nil
  | @cons u v us vs huv _ ih =>
    rw [List.filter_cons, List.filter_cons, huv.isEmpty_eq]
    split
    · exact .cons huv ih
    · exact ih

lemma rewritten_spaced {ps qs : List (List Char)} (h : List.Forall₂ Rewritten ps qs) :
    Rewritten (Text.spaced ps) (Text.spaced qs) := by
  induction h with
  | nil => exact .nil
  | cons hhead htail ih =>
    cases htail with
    | nil => simpa using hhead
    | cons _ _ =>
      rw [Text.spaced_cons_cons, Text.spaced_cons_cons]
      exact hhead.append (.keep ' ' ih)

/-- The normal form of a rewritten text is the normal form of the text, rewritten. -/
theorem Rewritten.normalize {a b : List Char} (h : Rewritten a b) :
    Rewritten (normalize a) (normalize b) :=
  rewritten_spaced (rewritten_filter_nonempty
    (h.dropLineComments false).dropBlockComments.splitWhere_isBlank)

/-! ## Putting parameters in place -/

lemma Reads.isName {cs rest name : List Char} (h : Reads cs (.reference name) rest) :
    IsName name := by
  cases h with
  | reference cs hd =>
    refine List.forall_mem_cons.mpr ⟨by simp [isNameChar, hd], fun c hc => ?_⟩
    exact List.all_eq_true.mp List.all_takeWhile c hc

lemma isDigit_digitChar {d : Nat} (h : d < 10) : Text.isDigit (Digits.digitChar d) = true := by
  revert d
  decide

lemma isDigit_of_mem_digitsOnto (n : Nat) (acc : List Char)
    (hacc : ∀ c ∈ acc, Text.isDigit c = true) :
    ∀ c ∈ Digits.digitsOnto n acc, Text.isDigit c = true := by
  fun_induction Digits.digitsOnto n acc with
  | case1 acc => exact hacc
  | case2 n acc hn ih =>
    exact ih (List.forall_mem_cons.mpr ⟨isDigit_digitChar (Nat.mod_lt n (by omega)), hacc⟩)

lemma digitsOnto_ne_nil (n : Nat) {acc : List Char} (hacc : acc ≠ []) :
    Digits.digitsOnto n acc ≠ [] := by
  fun_induction Digits.digitsOnto n acc with
  | case1 acc => exact hacc
  | case2 n acc hn ih => exact ih (by simp)

/-- A position is written as a dollar sign and digits. -/
lemma placed_position (n : Nat) : Placed ('$' :: Digits.numeral (n + 1)) := by
  have hne : Digits.numeral (n + 1) ≠ [] := by
    rw [Digits.numeral, if_neg (Nat.succ_ne_zero n), Digits.digitsOnto,
      dif_neg (Nat.succ_ne_zero n)]
    exact digitsOnto_ne_nil _ (by simp)
  obtain ⟨d, ds, hds⟩ := List.exists_cons_of_ne_nil hne
  rw [hds]
  refine .position ?_
  rw [← hds]
  exact isDigit_of_mem_digitsOnto (n + 1) [] (by simp)

variable {parameters : List (String × Json)}

/-- What is put in the place of a token rewrites it. -/
lemma Reads.rewritten_placeToken {cs rest : List Char} {t : Token} (h : Reads cs t rest)
    (order : List String) : Rewritten t.text (placeToken parameters order t) := by
  unfold placeToken
  cases t with
  | reference name =>
    have hplace : ∀ placed, Placed placed → Rewritten (Token.reference name).text placed := by
      intro placed hplaced
      simpa [Token.text] using Rewritten.place h.isName hplaced .nil
    simp only [Token.name?]
    split
    · exact hplace _ (placed_position _)
    · split
      · exact .refl _
      · exact hplace _ .null
  | literal inner => exact .refl _
  | identifier inner => exact .refl _
  | lineComment inner => exact .refl _
  | blockComment inner => exact .refl _
  | cast => exact .refl _
  | plain c => exact .refl _

/-- What rewrites the tokens one by one rewrites the text. -/
lemma rewritten_flatMap {w : Token → List Char}
    (hw : ∀ cs t rest, Reads cs t rest → Rewritten t.text (w t)) (cs : List Char) :
    Rewritten cs ((tokens cs).flatMap w) := by
  refine reads_induction (P := fun cs => Rewritten cs ((tokens cs).flatMap w))
    (by simpa using .nil) ?_ cs
  intro cs t rest h ih
  rw [h.tokens_eq, List.flatMap_cons, ← h.text_append]
  exact (hw cs t rest h).append ih

/-- Putting parameters in place rewrites the text. -/
theorem rewritten_of_bind {sql : String} {prepared : Prepared}
    (h : bind parameters sql = .ok prepared) : Rewritten sql.toList prepared.text.toList := by
  unfold bind at h
  split at h
  · obtain rfl : ⟨sql, []⟩ = prepared := by simpa using h
    exact .refl _
  · simp only at h
    split at h
    · -- a reference without a value
      simp at h
    · obtain rfl : place parameters (tokens sql.toList) = prepared := by simpa using h
      simpa [place] using
        rewritten_flatMap (fun _ _ _ h => h.rewritten_placeToken _) sql.toList

end RevenueDesk.Sql
