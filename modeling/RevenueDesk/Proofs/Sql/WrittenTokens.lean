/-
# The tokens of a text with its references replaced

A text whose references give way to numbers or to `NULL` is read again, by the database.  It is
cut where the query was cut: every other token stands as it did, and in the place of a reference
stand the characters that are written for it, each on its own (`tokens_flatMap_written`).

* `closeQuote?_append`: a literal is closed by what stands behind it up to the next quotes;
* `Reads.rewritten`: a token is read as before if what stands behind it is rewritten.
-/
import RevenueDesk.Proofs.Sql.Binding
import RevenueDesk.Proofs.Sql.InStep

namespace RevenueDesk.Sql

/-! ## Quotes -/

section Quotes

variable {q : Char} {cs inner rest rest' : List Char}

/-- The closing quote is not the first of two, unless the text is not closed behind them. -/
lemma closeQuote?_stops (h : closeQuote? q cs = some (inner, rest)) :
    rest.head? = some q → q ∉ rest.tail := by
  fun_induction closeQuote? q cs generalizing inner rest with
  | case1 => simp at h
  | case2 =>
    obtain ⟨-, rfl⟩ : [] = inner ∧ [] = rest := by simpa using h
    simp
  | case3 => simp at h
  | case4 cs inner' rest' hclose ih =>
    obtain ⟨-, rfl⟩ : _ ∧ rest' = rest := by simpa using h
    exact ih hclose
  | case5 cs hnone =>
    obtain ⟨-, rfl⟩ : _ ∧ _ = rest := by simpa using h
    exact fun _ => closeQuote?_eq_none_iff.mp hnone
  | case6 d cs hd =>
    obtain ⟨-, rfl⟩ : _ ∧ _ = rest := by simpa using h
    simpa using fun h => absurd h hd
  | case7 c d cs hc inner' rest' hclose ih =>
    obtain ⟨-, rfl⟩ : _ ∧ rest' = rest := by simpa using h
    exact ih hclose
  | case8 => simp at h

/-- What has quotes only in pairs is closed by the quote behind it. -/
lemma closeQuote?_append (hinner : Inside q inner) (hrest : rest.head? = some q → q ∉ rest.tail) :
    closeQuote? q (inner ++ q :: rest) = some (inner, rest) := by
  induction hinner with
  | nil =>
    rw [List.nil_append, closeQuote?_cons, if_pos rfl]
    split
    · rename_i hhead
      rw [closeQuote?_eq_none_iff.mpr (hrest hhead)]
    · rfl
  | char hc _ ih => rw [List.cons_append, closeQuote?_cons, if_neg hc, ih, Option.map_some]
  | quotes _ ih =>
    rw [List.cons_append, List.cons_append, closeQuote?_cons, if_pos rfl, List.head?_cons,
      if_pos rfl, List.tail_cons, ih]

end Quotes

/-! ## One token -/

variable {a b cs rest rest' : List Char}

lemma Rewritten.eq_nil_iff (h : Rewritten a b) : a = [] ↔ b = [] := by
  rw [← List.isEmpty_iff, ← List.isEmpty_iff, h.isEmpty_eq]

lemma Rewritten.mem_iff (h : Rewritten a b) {c : Char} (hc : Foreign c) : c ∈ a ↔ c ∈ b := by
  induction h with
  | nil => rfl
  | keep d _ ih => rw [List.mem_cons, List.mem_cons, ih]
  | place hname hplaced _ ih =>
    rw [List.mem_append, List.mem_append, ih]
    simp only [hname.not_mem hc, hplaced.not_mem hc, false_or]

lemma foreign_quote {q : Char} (hq : q = '\'' ∨ q = '"') : Foreign q := by
  rcases hq with rfl | rfl <;> exact ⟨by decide, by decide, by decide⟩

/-- A literal or a quoted identifier is closed as before. -/
lemma Rewritten.closeQuote? (h : Rewritten rest rest') {q : Char} (hq : q = '\'' ∨ q = '"')
    {inner : List Char} (hclose : Sql.closeQuote? q cs = some (inner, rest)) :
    Sql.closeQuote? q (inner ++ q :: rest') = some (inner, rest') := by
  refine closeQuote?_append (inside_of_closeQuote? hclose) fun hhead => ?_
  have hfirst := (h.head?_iff_of_foreign (foreign_quote hq)).mpr hhead
  obtain ⟨ds, rfl⟩ := List.head?_eq_some_iff.mp hfirst
  obtain ⟨ds', rfl, hrest⟩ := h.of_cons_of_foreign (foreign_quote hq)
  exact mt (hrest.mem_iff (foreign_quote hq)).mpr (closeQuote?_stops hclose rfl)

/-- A token that is no reference is read as before if what stands behind it is rewritten. -/
lemma Reads.rewritten {t : Token} (hread : Reads cs t rest) (ht : t.name? = none)
    (h : Rewritten rest rest') : Reads (t.text ++ rest') t rest' := by
  cases hread with
  | literal hclose => simpa [Token.text] using Reads.literal (h.closeQuote? (.inl rfl) hclose)
  | identifier hclose => simpa [Token.text] using Reads.identifier (h.closeQuote? (.inr rfl) hclose)
  | lineComment cs =>
    have hstop : ∀ c, rest'.head? = some c → (c != '\n') = false := by
      intro c hc
      obtain ⟨d, ds, hds⟩ : ∃ d ds, cs.dropWhile (· != '\n') = d :: ds := by
        refine List.exists_cons_of_ne_nil fun hnil => ?_
        simp [h.eq_nil_iff.mp hnil] at hc
      have hd : d = '\n' := Text.eq_of_head?_dropWhile_ne (by rw [hds, List.head?_cons])
      have hnewline := (h.head?_iff fun hi => hi.ne_newline rfl).mp (by rw [hds, hd]; rfl)
      obtain rfl : c = '\n' := Option.some.inj (hc.symm.trans hnewline)
      rfl
    obtain ⟨htake, hdrop⟩ := Text.cut_append (· != '\n') cs hstop
    have hread := Reads.lineComment (cs.takeWhile (· != '\n') ++ rest')
    rwa [htake, hdrop] at hread
  | @blockComment cs inner _ hclose =>
    have hsame : closeComment? (inner ++ '*' :: '/' :: rest') = some (inner, rest') :=
      closeComment?_eq_some_iff.mpr ⟨rfl, (closeComment?_eq_some_iff.mp hclose).2⟩
    simpa [Token.text] using Reads.blockComment hsame
  | cast => exact .cast rest'
  | reference => simp [Token.name?] at ht
  | @plain c _ hquote hdash hslash hcolon =>
    show Reads (c :: rest') (.plain c) rest'
    refine .plain (fun hc => ?_) (fun hc hhead => ?_) (fun hc ds hds => ?_) fun hc d ds hds => ?_
    · rw [closeQuote?_eq_none_iff, ← h.mem_iff (foreign_quote hc), ← closeQuote?_eq_none_iff]
      exact hquote hc
    · exact hdash hc ((h.head?_iff fun hi => hi.ne_dash rfl).mpr hhead)
    · have hstar := (h.head?_iff fun hi => hi.ne_star rfl).mpr (by rw [hds]; rfl)
      obtain ⟨es, rfl⟩ := List.head?_eq_some_iff.mp hstar
      obtain ⟨es', rfl, hbehind⟩ := h.of_cons fun hi => hi.ne_star rfl
      obtain rfl : es' = ds := (List.cons.inj hds).2
      rcases hbehind.closeComment? with ⟨-, hnone⟩ | ⟨i, r, -, -, hsome, -⟩
      · exact hnone
      · simp [hslash hc es rfl] at hsome
    · -- no reference begins behind the colon, so its first character is kept
      cases h with
      | nil => simp at hds
      | keep e _ =>
        obtain ⟨rfl, -⟩ := List.cons.inj hds
        exact hcolon hc _ _ rfl
      | place => exact absurd rfl (hcolon hc ':' _ rfl).1

/-! ## All tokens -/

section All

variable (parameters : List (String × Json)) (number : String → ℕ)

/-- The tokens that are written for a token, when names have numbers. -/
def writtenTokens : Token → List Token
  | .reference name => (written parameters number (.reference name)).map .plain
  | t => [t]

/-- A reference gives way to `NULL` or to a dollar sign and a number. -/
lemma placed_written (name : List Char) :
    Placed (written parameters number (.reference name)) := by
  rcases written_reference parameters number name with ⟨-, h⟩ | ⟨-, h⟩
  · exact h ▸ .null
  · obtain ⟨d, ds, hds⟩ := List.exists_cons_of_ne_nil
      (Nat.toDigits_ne_nil (b := 10) (n := number (String.ofList name)))
    rw [h, hds]
    exact .position (hds ▸ isDigit_toDigits _)

lemma rewritten_written (cs : List Char) :
    Rewritten cs ((tokens cs).flatMap (written parameters number)) := by
  refine rewritten_flatMap (fun _ t _ hread => ?_) cs
  cases t with
  | reference name =>
    have hplaced := placed_written parameters number name
    simpa [Token.text] using Rewritten.place hread.isName hplaced .nil
  | _ => exact .refl _

/-- Nothing that is written for a reference begins a longer token. -/
lemma Placed.not_mem_tokenStarts {placed : List Char} (h : Placed placed) :
    ∀ c ∈ placed, c ∉ tokenStarts := by
  cases h with
  | null => decide
  | position hds =>
    refine List.forall_mem_cons.mpr ⟨by decide, fun c hc hstart => ?_⟩
    have hdigit : ∀ c ∈ tokenStarts, Text.isDigit c = false := by decide
    simpa [hds c hc] using hdigit c hstart

lemma tokens_append_plain {xs : List Char} (h : ∀ c ∈ xs, c ∉ tokenStarts) (rest : List Char) :
    tokens (xs ++ rest) = xs.map .plain ++ tokens rest := by
  induction xs with
  | nil => rfl
  | cons c cs ih =>
    obtain ⟨hc, hcs⟩ := List.forall_mem_cons.mp h
    rw [List.cons_append, (reads_plain hc _).tokens_eq, ih hcs, List.map_cons, List.cons_append]

/-- The text that is written for the tokens of a query has the tokens that are written for
them. -/
theorem tokens_flatMap_written (cs : List Char) :
    tokens ((tokens cs).flatMap (written parameters number)) =
      (tokens cs).flatMap (writtenTokens parameters number) := by
  refine reads_induction (P := fun cs => tokens ((tokens cs).flatMap (written parameters number)) =
    (tokens cs).flatMap (writtenTokens parameters number)) (by simp) ?_ cs
  intro cs t rest hread ih
  rw [hread.tokens_eq, List.flatMap_cons, List.flatMap_cons]
  have hkept (ht : t.name? = none) :
      tokens (t.text ++ (tokens rest).flatMap (written parameters number)) =
        [t] ++ (tokens rest).flatMap (writtenTokens parameters number) := by
    rw [(hread.rewritten ht (rewritten_written parameters number rest)).tokens_eq, ih]
    rfl
  cases t with
  | reference name =>
    rw [tokens_append_plain (placed_written parameters number name).not_mem_tokenStarts, ih]
    rfl
  | _ => exact hkept rfl

end All

end RevenueDesk.Sql
