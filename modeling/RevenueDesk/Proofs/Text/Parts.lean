/-
# The parts of a text that is put together

A text is cut into parts at separators.  If the text is put together from two texts, its
parts are those of the two, except that the last part of the first text and the first part
of the second one are joined where no separator stands between them.

* `runs_append_cons`, `runs_append`: the cases in which nothing is joined;
* `words_spaced_pieces`, `count_spaced_pieces`: the words of a text do not depend on the blanks
  between its pieces, nor do the characters in it that are not blank.
-/
import Mathlib.Tactic.Common
import RevenueDesk.Text.Word

namespace RevenueDesk.Text

/-- What holds of all characters of a text is decided on the text, and not on all characters
that there are. -/
instance (priority := 1100) decidableForallMem {p : Char → Prop} [DecidablePred p]
    (cs : List Char) : Decidable (∀ c ∈ cs, p c) := List.decidableBAll p cs

section Splitting

variable {p : Char → Bool}

/-- Characters that separate nothing join the first part behind them. -/
lemma splitWhere_append_of_forall_not {xs ys h : List Char} {t : List (List Char)}
    (hxs : ∀ c ∈ xs, p c = false) (hys : splitWhere p ys = h :: t) :
    splitWhere p (xs ++ ys) = (xs ++ h) :: t := by
  induction xs with
  | nil => exact hys
  | cons c cs ih =>
    obtain ⟨hc, hcs⟩ := List.forall_mem_cons.mp hxs
    rw [List.cons_append, splitWhere_cons, ih hcs]
    simp [splitStep, hc]

lemma splitWhere_of_forall_not {xs : List Char} (hxs : ∀ c ∈ xs, p c = false) :
    splitWhere p xs = [xs] := by
  simpa using splitWhere_append_of_forall_not hxs (splitWhere_nil p)

/-- Nothing is joined across a separator. -/
lemma splitWhere_append_cons {c : Char} (hc : p c = true) (xs ys : List Char) :
    splitWhere p (xs ++ c :: ys) = splitWhere p xs ++ splitWhere p ys := by
  induction xs with
  | nil => simp [splitStep, hc]
  | cons d ds ih =>
    rw [List.cons_append, splitWhere_cons, splitWhere_cons, ih]
    obtain ⟨h, t, hds⟩ := List.exists_cons_of_ne_nil (splitWhere_ne_nil p ds)
    rw [hds]
    unfold splitStep
    split <;> simp

lemma runs_append_cons {c : Char} (hc : p c = true) (xs ys : List Char) :
    runs p (xs ++ c :: ys) = runs p xs ++ runs p ys := by
  simp [runs, splitWhere_append_cons hc]

@[simp] lemma runs_nil : runs p [] = [] := by simp [runs]

lemma runs_cons {c : Char} (hc : p c = true) (cs : List Char) : runs p (c :: cs) = runs p cs := by
  simpa using runs_append_cons hc [] cs

lemma runs_concat {c : Char} (hc : p c = true) (cs : List Char) :
    runs p (cs ++ [c]) = runs p cs := by
  simpa using runs_append_cons hc cs []

/-- Nothing is joined if the first text ends with a separator or the second one begins with
one. -/
lemma runs_append {xs ys : List Char}
    (h : (∀ c, xs.getLast? = some c → p c = true) ∨ ∀ c, ys.head? = some c → p c = true) :
    runs p (xs ++ ys) = runs p xs ++ runs p ys := by
  rcases h with h | h
  · rcases List.eq_nil_or_concat xs with rfl | ⟨zs, c, rfl⟩
    · simp
    · have hc : p c = true := h c (by simp)
      rw [List.concat_eq_append, List.append_assoc, List.singleton_append, runs_append_cons hc,
        runs_concat hc]
  · cases ys with
    | nil => simp
    | cons c cs =>
      have hc : p c = true := h c rfl
      rw [runs_append_cons hc, runs_cons hc]

/-- A text without separators is its only part. -/
lemma runs_of_forall_not {xs : List Char} (hne : xs ≠ []) (hxs : ∀ c ∈ xs, p c = false) :
    runs p xs = [xs] := by
  simp [runs, splitWhere_of_forall_not hxs, hne]

/-- The first part stands at the beginning of the text, the others behind it. -/
lemma isPrefix_of_splitWhere_eq_cons {cs w : List Char} {ws : List (List Char)}
    (h : splitWhere p cs = w :: ws) : w <+: cs ∧ ∀ v ∈ ws, v <:+: cs := by
  induction cs generalizing w ws with
  | nil =>
    obtain ⟨rfl, rfl⟩ := List.cons.inj h
    simp
  | cons c cs ih =>
    obtain ⟨u, us, hcs⟩ := List.exists_cons_of_ne_nil (splitWhere_ne_nil p cs)
    obtain ⟨hu, hus⟩ := ih hcs
    have hbehind : ∀ v, v <:+: cs → v <:+: c :: cs := fun v hv =>
      hv.trans (List.suffix_cons c cs).isInfix
    rw [splitWhere_cons, hcs, splitStep] at h
    split at h
    · obtain ⟨rfl, rfl⟩ := List.cons.inj h
      exact ⟨List.nil_prefix, List.forall_mem_cons.mpr
        ⟨hbehind u hu.isInfix, fun v hv => hbehind v (hus v hv)⟩⟩
    · obtain ⟨rfl, rfl⟩ := List.cons.inj h
      exact ⟨List.cons_prefix_cons.mpr ⟨rfl, hu⟩, fun v hv => hbehind v (hus v hv)⟩

/-- A part stands in the text as it is. -/
lemma isInfix_of_mem_runs {cs w : List Char} (h : w ∈ runs p cs) : w <:+: cs := by
  obtain ⟨v, vs, hcs⟩ := List.exists_cons_of_ne_nil (splitWhere_ne_nil p cs)
  obtain ⟨hv, hvs⟩ := isPrefix_of_splitWhere_eq_cons hcs
  have hmem := (List.mem_filter.mp h).1
  rw [hcs] at hmem
  rcases List.mem_cons.mp hmem with rfl | hmem
  · exact hv.isInfix
  · exact hvs w hmem

/-- A text without separators, or the first separator with what stands around it. -/
lemma exists_first_separator (q : Char → Bool) (cs : List Char) :
    (∀ c ∈ cs, q c = false) ∨
      ∃ xs d ys, cs = xs ++ d :: ys ∧ (∀ c ∈ xs, q c = false) ∧ q d = true := by
  induction cs with
  | nil => exact Or.inl (by simp)
  | cons c cs ih =>
    by_cases hc : q c = true
    · exact Or.inr ⟨[], c, cs, rfl, by simp, hc⟩
    · have hc' : q c = false := by simpa using hc
      rcases ih with hall | ⟨xs, d, ys, rfl, hxs, hd⟩
      · exact Or.inl (List.forall_mem_cons.mpr ⟨hc', hall⟩)
      · exact Or.inr ⟨c :: xs, d, ys, rfl, List.forall_mem_cons.mpr ⟨hc', hxs⟩, hd⟩

variable (p) in
/-- `part` stands in `cs` with no separator in it, and with one, or an end of `cs`, on either
side. -/
structure IsPart (cs part : List Char) : Prop where
  whole : ∀ c ∈ part, p c = false
  around : ∃ before after, cs = before ++ (part ++ after) ∧
    (∀ c, before.getLast? = some c → p c = true) ∧ ∀ c, after.head? = some c → p c = true

lemma mem_splitWhere_of_isPart {cs part : List Char} (h : IsPart p cs part) :
    part ∈ splitWhere p cs := by
  obtain ⟨before, after, rfl, hbefore, hafter⟩ := h.around
  have hbehind : part ∈ splitWhere p (part ++ after) := by
    cases after with
    | nil => simp [splitWhere_of_forall_not h.whole]
    | cons c after =>
      rw [splitWhere_append_cons (hafter c rfl), splitWhere_of_forall_not h.whole]
      simp
  rcases List.eq_nil_or_concat before with rfl | ⟨xs, d, rfl⟩
  · exact hbehind
  · have hd : p d = true := hbefore d (by simp)
    rw [List.concat_eq_append, List.append_assoc, List.singleton_append, splitWhere_append_cons hd]
    exact List.mem_append_right _ hbehind

/-- The parts of a text are told by what stands around them. -/
theorem mem_splitWhere_iff {cs part : List Char} : part ∈ splitWhere p cs ↔ IsPart p cs part := by
  refine ⟨fun h => ?_, mem_splitWhere_of_isPart⟩
  -- one separator at a time
  induction hlen : cs.length using Nat.strongRecOn generalizing cs with
  | _ n ih =>
    refine ⟨fun c hc => eq_false_of_mem_splitWhere h hc, ?_⟩
    rcases exists_first_separator p cs with hcs | ⟨xs, d, ys, rfl, hxs, hd⟩
    · obtain rfl : part = cs := by simpa [splitWhere_of_forall_not hcs] using h
      exact ⟨[], [], by simp, by simp, by simp⟩
    · rw [splitWhere_append_cons hd, splitWhere_of_forall_not hxs] at h
      rcases List.mem_cons.mp h with rfl | hmem
      · exact ⟨[], d :: ys, by simp, by simp, by simp [hd]⟩
      · have hshort : ys.length < n := by
          rw [← hlen, List.length_append, List.length_cons]
          omega
        obtain ⟨before, after, rfl, hbefore, hafter⟩ := (ih ys.length hshort hmem rfl).around
        refine ⟨xs ++ d :: before, after, by simp, fun c hc => ?_, hafter⟩
        rcases List.eq_nil_or_concat before with rfl | ⟨zs, e, rfl⟩
        · obtain rfl : d = c := by simpa using hc
          exact hd
        · exact hbefore c (by simpa [List.getLast?_cons] using hc)

/-- Cutting at more separators is cutting the parts again. -/
lemma runs_eq_flatMap_runs {q : Char → Bool} (hqp : ∀ c, q c = true → p c = true)
    (cs : List Char) : runs p cs = (runs q cs).flatMap (runs p) := by
  have hall : ∀ ds : List Char, (∀ c ∈ ds, q c = false) →
      runs p ds = (runs q ds).flatMap (runs p) := by
    intro ds hds
    by_cases hne : ds = []
    · simp [hne]
    · simp [runs_of_forall_not hne hds]
  -- one separator of the coarser cut at a time
  induction h : cs.length using Nat.strongRecOn generalizing cs with
  | _ n ih =>
    rcases exists_first_separator q cs with hcs | ⟨xs, d, ys, rfl, hxs, hd⟩
    · exact hall cs hcs
    · have hlen : ys.length < n := by
        simp only [List.length_append, List.length_cons] at h
        omega
      rw [runs_append_cons hd, runs_append_cons (hqp d hd), List.flatMap_append,
        ← ih ys.length hlen ys rfl, hall xs hxs]

end Splitting

/-! ## Pieces and the spaces between them -/

lemma pieces_append_cons {c : Char} (hc : isBlank c = true) (xs ys : List Char) :
    pieces (xs ++ c :: ys) = pieces xs ++ pieces ys := runs_append_cons hc xs ys

@[simp] lemma spaced_nil : spaced [] = [] := rfl

lemma spaced_cons_cons (w v : List Char) (ws : List (List Char)) :
    spaced (w :: v :: ws) = w ++ ' ' :: spaced (v :: ws) := by
  simp [spaced, List.intercalate]

@[simp] lemma spaced_singleton (w : List Char) : spaced [w] = w := by
  simp [spaced, List.intercalate]

lemma spaced_cons_of_ne_nil {ws : List (List Char)} (h : ws ≠ []) (w : List Char) :
    spaced (w :: ws) = w ++ ' ' :: spaced ws := by
  obtain ⟨v, vs, rfl⟩ := List.exists_cons_of_ne_nil h
  exact spaced_cons_cons w v vs

/-- The first character of the first piece stands in front. -/
lemma spaced_cons_char (c : Char) (w : List Char) (ws : List (List Char)) :
    spaced ((c :: w) :: ws) = c :: spaced (w :: ws) := by
  cases ws with
  | nil => simp
  | cons v vs => simp [spaced_cons_cons]

/-- Between two rows of pieces stands one more space. -/
lemma spaced_append {ws vs : List (List Char)} (hws : ws ≠ []) (hvs : vs ≠ []) :
    spaced (ws ++ vs) = spaced ws ++ ' ' :: spaced vs := by
  obtain ⟨v, vs, rfl⟩ := List.exists_cons_of_ne_nil hvs
  induction ws with
  | nil => exact absurd rfl hws
  | cons w ws ih =>
    cases ws with
    | nil => simpa using spaced_cons_cons w v vs
    | cons u us =>
      have hus := ih (by simp)
      rw [List.cons_append] at hus
      rw [List.cons_append, List.cons_append, spaced_cons_cons, spaced_cons_cons, hus,
        List.append_assoc, List.cons_append]

/-- A piece stands in the text as it is. -/
lemma isInfix_spaced {w : List Char} {ps : List (List Char)} (h : w ∈ ps) :
    w <:+: spaced ps := by
  induction ps with
  | nil => simp at h
  | cons p ps ih =>
    cases ps with
    | nil =>
      obtain rfl : w = p := by simpa using h
      exact ⟨[], [], by simp⟩
    | cons q qs =>
      rw [spaced_cons_cons]
      rcases List.mem_cons.mp h with rfl | hmem
      · exact (List.prefix_append w _).isInfix
      · exact (ih hmem).trans ((List.suffix_cons ' ' _).trans (List.suffix_append p _)).isInfix

/-- Characters that are not blank occur as often as in the text. -/
lemma count_spaced_pieces {c : Char} (hc : isBlank c = false) (cs : List Char) :
    (spaced (pieces cs)).count c = cs.count c := by
  have hspaced : ∀ ws : List (List Char), (spaced ws).count c = ws.flatten.count c := by
    have hspace : ' ' ≠ c := by
      rintro rfl
      simp [isBlank] at hc
    intro ws
    induction ws with
    | nil => rfl
    | cons w ws ih =>
      cases ws with
      | nil => simp
      | cons v vs =>
        rw [spaced_cons_cons, List.count_append, List.count_cons_of_ne hspace, ih]
        simp only [List.flatten_cons, List.count_append]
  rw [hspaced, pieces, runs, List.flatten_filter_not_isEmpty, flatten_splitWhere,
    List.count_filter (by simp [hc])]

/-! ## Words -/

/-- The blanks outside ASCII. -/
def wideBlanks : List Nat :=
  [0x85, 0xA0, 0x1680, 0x2000, 0x2001, 0x2002, 0x2003, 0x2004, 0x2005, 0x2006, 0x2007, 0x2008,
    0x2009, 0x200A, 0x2028, 0x2029, 0x202F, 0x205F, 0x3000]

lemma outside_wordBlocks_of_wideBlank :
    ∀ n ∈ wideBlanks, ∀ block ∈ wordBlocks.toList, n < block.1 ∨ block.2 < n := by
  decide +kernel

/-- A blank is one of the ASCII blanks or one of the others. -/
lemma toNat_of_isBlank {c : Char} (h : isBlank c = true) :
    (9 ≤ c.toNat ∧ c.toNat ≤ 13) ∨ c.toNat = 32 ∨ c.toNat ∈ wideBlanks := by
  simp only [isBlank, Bool.or_eq_true, Bool.and_eq_true, decide_eq_true_eq, beq_iff_eq,
    UInt32.le_iff_toNat_le, ← UInt32.toNat_inj, UInt32.reduceToNat, Char.toNat_val] at h
  simp only [wideBlanks, List.mem_cons, List.not_mem_nil, or_false]
  omega

lemma toNat_of_isAsciiWord {c : Char} (h : isAsciiWord c = true) :
    48 ≤ c.toNat ∧ c.toNat ≤ 122 := by
  simp only [isAsciiWord, Bool.or_eq_true, Bool.and_eq_true, decide_eq_true_eq, beq_iff_eq,
    Char.le_def, UInt32.le_iff_toNat_le, Char.toNat_val, Char.reduceToNat] at h
  rcases h with ((⟨h₁, h₂⟩ | ⟨h₁, h₂⟩) | ⟨h₁, h₂⟩) | rfl
  · omega
  · omega
  · omega
  · decide

/-- A blank is never part of a word. -/
lemma isWord_eq_false_of_isBlank {c : Char} (h : isBlank c = true) : isWord c = false := by
  have hc := toNat_of_isBlank h
  unfold isWord
  split
  · rename_i hlt
    have hsmall : c.toNat < 128 := by
      simpa only [UInt32.lt_iff_toNat_lt, Char.toNat_val, UInt32.reduceToNat] using hlt
    have hascii : c.toNat ≤ 32 := by
      simp only [wideBlanks, List.mem_cons, List.not_mem_nil, or_false] at hc
      omega
    by_contra hw
    have := toNat_of_isAsciiWord (by simpa using hw)
    omega
  · rename_i hlt
    have hlarge : ¬ c.toNat < 128 := by
      simpa only [UInt32.lt_iff_toNat_lt, Char.toNat_val, UInt32.reduceToNat] using hlt
    have hwide : c.toNat ∈ wideBlanks := by
      rcases hc with hc | hc | hc
      · omega
      · omega
      · exact hc
    rw [← Array.any_toList, List.any_eq_false]
    intro block hblock
    have := outside_wordBlocks_of_wideBlank c.toNat hwide block hblock
    simp only [Bool.and_eq_true, decide_eq_true_eq, not_and, Nat.not_le]
    omega

lemma words_append_cons {c : Char} (hc : isWord c = false) (xs ys : List Char) :
    words (xs ++ c :: ys) = words xs ++ words ys := runs_append_cons (by simp [hc]) xs ys

/-- The words of a text do not depend on the blanks between its pieces. -/
lemma words_spaced_pieces (cs : List Char) : words (spaced (pieces cs)) = words cs := by
  have hspaced : ∀ ws : List (List Char), words (spaced ws) = ws.flatMap words := by
    intro ws
    induction ws with
    | nil => simp [words]
    | cons w ws ih =>
      cases ws with
      | nil => simp
      | cons v vs =>
        rw [spaced_cons_cons, words_append_cons (by decide), ih]
        rfl
  rw [hspaced]
  refine (runs_eq_flatMap_runs ?_ cs).symm
  intro c hc
  simp [isWord_eq_false_of_isBlank hc]

end RevenueDesk.Text
