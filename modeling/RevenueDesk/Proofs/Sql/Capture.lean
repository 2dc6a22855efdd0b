/-
# Placeholders of the query's own

The database gives the values of a query to its placeholders, a dollar sign and digits each,
wherever these stand outside of literals, quoted identifiers and comments.  A query gets
placeholders for its references; but it may have had some before, and nothing looks for them.

`PlaceholderOrigins` says where the placeholders of the query that is sent come from, and which
values they take: they are those written for references and those that stood in the query, so
all are written for references exactly if the query had none.  One that stood there takes the
value of the name that has its number (`placeholder_origins`), as does the `$1` of
`capturingQuery`.
-/
import Mathlib.Data.List.Chain
import RevenueDesk.Proofs.Sql.WrittenTokens

namespace RevenueDesk.Sql

/-- In a row of tokens a placeholder stands between `before` and `after`: a dollar sign, and
digits as far as they go. -/
structure Placeholder (ts before : List Token) (digits : List Char) (after : List Token) :
    Prop where
  row : ts = before ++ .plain '$' :: (digits.map .plain ++ after)
  nonempty : digits ≠ []
  isDigit : ∀ c ∈ digits, Text.isDigit c = true
  longest : ∀ c, after.head? = some (.plain c) → Text.isDigit c = false

/-- The value that a placeholder takes: values have the numbers from one on. -/
def Prepared.valueAt (p : Prepared) (digits : List Char) : Option Json :=
  match Nat.ofDigitChars 10 digits 0 with
  | 0 => none
  | k + 1 => p.values[k]?

variable (parameters : List (String × Json)) (number : String → ℕ)

/-- The tokens that are written for a row of tokens. -/
def sent (ts : List Token) : List Token := ts.flatMap (writtenTokens parameters number)

/-- The placeholder is written for a reference to the name. -/
def WrittenFor (name : String) (ts before : List Token) (digits : List Char)
    (after : List Token) : Prop :=
  ∃ xs letters ys, ts = xs ++ .reference letters :: ys ∧ String.ofList letters = name ∧
    Keyed.find? name parameters ≠ some .null ∧ sent parameters number xs = before ∧
    Nat.toDigits 10 (number name) = digits ∧ sent parameters number ys = after

/-- The placeholder stands in the row of tokens itself. -/
def Own (ts before : List Token) (digits : List Char) (after : List Token) : Prop :=
  ∃ xs ys, Placeholder ts xs digits ys ∧ sent parameters number xs = before ∧
    sent parameters number ys = after

/-- Where the placeholders of the query that is sent come from, and what they take.  The query
has the tokens `ts`, the one that is sent for it the tokens `us`. -/
structure PlaceholderOrigins (ts us : List Token) (p : Prepared) : Prop where
  /-- It is read as what is written for the tokens of the query, one by one. -/
  row : us = sent parameters (rank (boundNames parameters ts)) ts
  /-- The placeholders are those of references, and those that stood in the query. -/
  origin_iff : ∀ before digits after, Placeholder us before digits after ↔
    (∃ name, WrittenFor parameters (rank (boundNames parameters ts)) name ts before digits after) ∨
      Own parameters (rank (boundNames parameters ts)) ts before digits after
  /-- No placeholder is both. -/
  apart : ∀ name before digits after,
    WrittenFor parameters (rank (boundNames parameters ts)) name ts before digits after →
      ¬ Own parameters (rank (boundNames parameters ts)) ts before digits after
  /-- All are written for references exactly if the query had none of its own. -/
  fresh_iff : (∀ before digits after, Placeholder us before digits after →
      ∃ name, WrittenFor parameters (rank (boundNames parameters ts)) name ts before digits after) ↔
    ∀ before digits after, ¬ Placeholder ts before digits after
  /-- The placeholder of a reference takes the value of the name. -/
  value : ∀ name before digits after,
    WrittenFor parameters (rank (boundNames parameters ts)) name ts before digits after →
      p.valueAt digits = Keyed.find? name parameters
  /-- One that stood in the query takes the value of the name that has its number. -/
  captured : ∀ before digits after,
    Own parameters (rank (boundNames parameters ts)) ts before digits after →
      ∀ v, p.valueAt digits = some v ↔ ∃ name ∈ boundNames parameters ts,
        rank (boundNames parameters ts) name = Nat.ofDigitChars 10 digits 0 ∧
          Keyed.find? name parameters = some v

/-! ## What follows a token -/

section Following

variable {ts : List Token} {cs : List Char} {c : Char}

/-- No digit follows a name. -/
def NoDigitAfter (t u : Token) : Prop :=
  ∀ name c, t = .reference name → u = .plain c → Text.isDigit c = false

lemma head?_of_tokens (h : (tokens cs).head? = some (.plain c)) : cs.head? = some c := by
  cases cs with
  | nil => simp at h
  | cons d ds =>
    have hread := reads_next d ds
    have hplain : (next d ds).1 = .plain c := by simpa [tokens_cons] using h
    rw [← hread.text_append, hplain]
    rfl

/-- In the tokens of a text no digit follows a name: it would belong to the name. -/
lemma isChain_tokens (cs : List Char) : (tokens cs).IsChain NoDigitAfter := by
  refine reads_induction (P := fun cs => (tokens cs).IsChain NoDigitAfter) (by simp) ?_ cs
  intro cs t rest hread ih
  rw [hread.tokens_eq, List.isChain_cons]
  refine ⟨?_, ih⟩
  rintro _ hhead name c rfl rfl
  have hc := head?_of_tokens hhead
  cases hread with
  | reference cs hd =>
    have hname := Text.head?_dropWhile cs c hc
    rw [isNameChar, Bool.or_eq_false_iff] at hname
    exact hname.2

variable {parameters number}

lemma sent_cons (t : Token) (ts : List Token) :
    sent parameters number (t :: ts) = writtenTokens parameters number t ++
      sent parameters number ts := by
  rw [sent, sent, List.flatMap_cons]

lemma sent_append (xs ys : List Token) :
    sent parameters number (xs ++ ys) = sent parameters number xs ++ sent parameters number ys := by
  rw [sent, sent, sent, List.flatMap_append]

lemma sent_map_plain (cs : List Char) : sent parameters number (cs.map .plain) = cs.map .plain := by
  induction cs with
  | nil => rfl
  | cons c cs ih =>
    rw [List.map_cons, sent_cons, ih]
    rfl

/-- What is written begins with a digit only if the tokens do. -/
lemma head?_of_sent (h : (sent parameters number ts).head? = some (.plain c))
    (hc : Text.isDigit c = true) : ts.head? = some (.plain c) := by
  cases ts with
  | nil => simp [sent] at h
  | cons t ts =>
    rw [sent_cons] at h
    cases t with
    | reference name =>
      rw [writtenTokens] at h
      have hplaced := placed_written parameters number name
      revert hplaced h
      generalize written parameters number (.reference name) = placed
      rintro h (_ | _)
      · obtain rfl : 'N' = c := by simpa using h
        simp [Text.isDigit] at hc
      · obtain rfl : '$' = c := by simpa using h
        simp [Text.isDigit] at hc
    | _ => exact h

/-- Digits that are sent stood in the query, if they do not stand behind a position. -/
lemma digits_of_sent {digits : List Char} {after : List Token}
    (h : digits.map .plain ++ after = sent parameters number ts)
    (hdigits : ∀ c ∈ digits, Text.isDigit c = true) :
    ∃ ys, ts = digits.map .plain ++ ys ∧ sent parameters number ys = after := by
  induction digits generalizing ts with
  | nil => exact ⟨ts, rfl, h.symm⟩
  | cons d ds ih =>
    obtain ⟨hd, hds⟩ := List.forall_mem_cons.mp hdigits
    have hhead : ts.head? = some (.plain d) := head?_of_sent (by rw [← h]; rfl) hd
    obtain ⟨rest, rfl⟩ := List.head?_eq_some_iff.mp hhead
    have hrest : ds.map .plain ++ after = sent parameters number rest := by
      rw [sent_cons] at h
      exact (List.cons.inj h).2
    obtain ⟨ys, rfl, hys⟩ := ih hrest hds
    exact ⟨ys, rfl, hys⟩

/-- Digits as far as they go are the same on either side. -/
lemma digits_unique {ds ds' : List Char} {ts' : List Token}
    (h : ds.map Token.plain ++ ts = ds'.map .plain ++ ts')
    (hds : ∀ c ∈ ds, Text.isDigit c = true) (hds' : ∀ c ∈ ds', Text.isDigit c = true)
    (hts : ∀ c, ts.head? = some (.plain c) → Text.isDigit c = false)
    (hts' : ∀ c, ts'.head? = some (.plain c) → Text.isDigit c = false) : ds = ds' ∧ ts = ts' := by
  induction ds generalizing ds' with
  | nil =>
    cases ds' with
    | nil => exact ⟨rfl, h⟩
    | cons d ds' =>
      have hd := hts d (by rw [← List.nil_append ts]; exact congrArg List.head? h)
      simp [hds' d List.mem_cons_self] at hd
  | cons d ds ih =>
    obtain ⟨hd, hrest⟩ := List.forall_mem_cons.mp hds
    cases ds' with
    | nil =>
      have hd' := hts' d (congrArg List.head? h.symm)
      simp [hd] at hd'
    | cons d' ds' =>
      obtain ⟨hfirst, htail⟩ := List.cons.inj h
      obtain rfl : d = d' := Token.plain.inj hfirst
      obtain ⟨rfl, rfl⟩ := ih htail hrest fun c hc => hds' c (List.mem_cons_of_mem _ hc)
      exact ⟨rfl, rfl⟩

end Following

/-! ## Where placeholders come from -/

section Origins

variable {parameters number} {ts before after : List Token} {digits : List Char} {name : String}

lemma WrittenFor.cons (h : WrittenFor parameters number name ts before digits after) (t : Token) :
    WrittenFor parameters number name (t :: ts) (writtenTokens parameters number t ++ before)
      digits after := by
  obtain ⟨xs, letters, ys, rfl, hname, hfind, rfl, hdigits, hafter⟩ := h
  exact ⟨t :: xs, letters, ys, rfl, hname, hfind, sent_cons t xs, hdigits, hafter⟩

lemma Own.cons (h : Own parameters number ts before digits after) (t : Token) :
    Own parameters number (t :: ts) (writtenTokens parameters number t ++ before) digits after := by
  obtain ⟨xs, ys, hown, rfl, hafter⟩ := h
  exact ⟨t :: xs, ys, ⟨by rw [hown.row]; rfl, hown.nonempty, hown.isDigit, hown.longest⟩,
    sent_cons t xs, hafter⟩

/-- A dollar sign in what is written for a reference is that of a position. -/
lemma writtenFor_of_reference {letters : List Char} {mid : List Token}
    (hfollows : ∀ u ∈ ts.head?, NoDigitAfter (.reference letters) u)
    (hwritten : writtenTokens parameters number (.reference letters) = before ++ .plain '$' :: mid)
    (hmid : digits.map .plain ++ after = mid ++ sent parameters number ts)
    (hdigits : ∀ c ∈ digits, Text.isDigit c = true)
    (hlongest : ∀ c, after.head? = some (.plain c) → Text.isDigit c = false) :
    WrittenFor parameters number (String.ofList letters) (.reference letters :: ts) before digits
      after := by
  have hdollar : Token.plain '$' ∈ before ++ .plain '$' :: mid := by simp
  rw [writtenTokens] at hwritten
  rcases written_reference parameters number letters with ⟨-, hnull⟩ | ⟨hfind, hposition⟩
  · rw [← hwritten, hnull] at hdollar
    exact absurd hdollar (by decide)
  rw [hposition, List.map_cons] at hwritten
  cases before with
  | cons b before =>
    -- there is no dollar sign among the digits
    have hmem : Token.plain '$' ∈
        (Nat.toDigits 10 (number (String.ofList letters))).map Token.plain := by
      rw [(List.cons.inj hwritten).2]
      exact List.mem_append_right _ List.mem_cons_self
    obtain ⟨c, hc, hplain⟩ := List.mem_map.mp hmem
    obtain rfl : c = '$' := Token.plain.inj hplain
    exact absurd (isDigit_toDigits _ _ hc) (by decide)
  | nil =>
    rw [← (List.cons.inj hwritten).2] at hmid
    have hstop : ∀ c, (sent parameters number ts).head? = some (.plain c) →
        Text.isDigit c = false := by
      intro c hc
      by_contra hdigit
      rw [Bool.not_eq_false] at hdigit
      simp [hfollows _ (head?_of_sent hc hdigit) letters c rfl rfl] at hdigit
    obtain ⟨rfl, rfl⟩ := digits_unique hmid hdigits (isDigit_toDigits _) hlongest hstop
    exact ⟨[], letters, ts, rfl, rfl, hfind, rfl, rfl, rfl⟩

/-- A dollar sign that is kept begins a placeholder if it did before. -/
lemma own_of_dollar (hdigits : digits.map .plain ++ after = sent parameters number ts)
    (hnonempty : digits ≠ []) (hdigit : ∀ c ∈ digits, Text.isDigit c = true)
    (hlongest : ∀ c, after.head? = some (.plain c) → Text.isDigit c = false) :
    Own parameters number (.plain '$' :: ts) [] digits after := by
  obtain ⟨ys, rfl, rfl⟩ := digits_of_sent hdigits hdigit
  refine ⟨[], ys, ⟨rfl, hnonempty, hdigit, fun c hc => ?_⟩, rfl, rfl⟩
  obtain ⟨rest, rfl⟩ := List.head?_eq_some_iff.mp hc
  exact hlongest c rfl

/-- A placeholder that is sent is written for a reference or stood in the query. -/
lemma Placeholder.origin (hchain : ts.IsChain NoDigitAfter)
    (h : Placeholder (sent parameters number ts) before digits after) :
    (∃ name, WrittenFor parameters number name ts before digits after) ∨
      Own parameters number ts before digits after := by
  induction ts generalizing before with
  | nil => simpa [sent] using h.row
  | cons t ts ih =>
    obtain ⟨hfollows, hrest⟩ := List.isChain_cons.mp hchain
    have hrow := h.row
    rw [sent_cons] at hrow
    -- the placeholder begins behind what is written for the first token
    have hbehind : ∀ before', before = writtenTokens parameters number t ++ before' →
        sent parameters number ts = before' ++ .plain '$' :: (digits.map .plain ++ after) →
        (∃ name, WrittenFor parameters number name (t :: ts) before digits after) ∨
          Own parameters number (t :: ts) before digits after := by
      rintro before' rfl hts
      rcases ih hrest ⟨hts, h.nonempty, h.isDigit, h.longest⟩ with ⟨name, hwritten⟩ | hown
      · exact .inl ⟨name, hwritten.cons t⟩
      · exact .inr (hown.cons t)
    -- it begins inside of it
    have hinside : ∀ mid, writtenTokens parameters number t = before ++ .plain '$' :: mid →
        digits.map .plain ++ after = mid ++ sent parameters number ts →
        (∃ name, WrittenFor parameters number name (t :: ts) before digits after) ∨
          Own parameters number (t :: ts) before digits after := by
      intro mid hwritten hmid
      have hkept (hw : [t] = before ++ .plain '$' :: mid) :
          Own parameters number (t :: ts) before digits after := by
        obtain ⟨rfl, rfl, rfl⟩ : before = [] ∧ t = .plain '$' ∧ mid = [] := by
          cases before with
          | nil => simpa using hw
          | cons => simp at hw
        exact own_of_dollar hmid h.nonempty h.isDigit h.longest
      cases t with
      | reference letters =>
        exact .inl ⟨_, writtenFor_of_reference hfollows hwritten hmid h.isDigit h.longest⟩
      | _ => exact .inr (hkept hwritten)
    rcases List.append_eq_append_iff.mp hrow with ⟨before', hbefore, hts⟩ | ⟨mid, hwritten, hmid⟩
    · exact hbehind before' hbefore hts
    · cases mid with
      | nil => exact hbehind [] (by simpa using hwritten.symm) hmid.symm
      | cons u mid =>
        obtain ⟨rfl, hdigits⟩ := List.cons.inj hmid
        exact hinside mid hwritten hdigits

/-- What is written for a reference is a placeholder, unless it is `NULL`. -/
lemma WrittenFor.placeholder (hchain : ts.IsChain NoDigitAfter)
    (h : WrittenFor parameters number name ts before digits after) :
    Placeholder (sent parameters number ts) before digits after := by
  obtain ⟨xs, letters, ys, rfl, rfl, hfind, rfl, rfl, rfl⟩ := h
  have hposition : writtenTokens parameters number (.reference letters) =
      .plain '$' :: (Nat.toDigits 10 (number (String.ofList letters))).map .plain := by
    rcases written_reference parameters number letters with ⟨hnull, -⟩ | ⟨-, h⟩
    · exact absurd hnull hfind
    · rw [writtenTokens, h, List.map_cons]
  refine ⟨?_, Nat.toDigits_ne_nil, isDigit_toDigits _, fun c hc => ?_⟩
  · rw [sent_append, sent_cons, hposition, List.cons_append]
  · by_contra hdigit
    rw [Bool.not_eq_false] at hdigit
    have hfollows := (List.isChain_cons.mp (List.isChain_append.mp hchain).2.1).1
    simp [hfollows _ (head?_of_sent hc hdigit) letters c rfl rfl] at hdigit

/-- A placeholder of the query is one of what is sent. -/
lemma Own.placeholder (h : Own parameters number ts before digits after) :
    Placeholder (sent parameters number ts) before digits after := by
  obtain ⟨xs, ys, hown, rfl, rfl⟩ := h
  refine ⟨?_, hown.nonempty, hown.isDigit, fun c hc => ?_⟩
  · rw [hown.row, sent_append, sent_cons, sent_append, sent_map_plain]
    rfl
  · by_contra hdigit
    rw [Bool.not_eq_false] at hdigit
    simp [hown.longest c (head?_of_sent hc hdigit)] at hdigit

/-- What is sent for the tokens up to a place tells the place. -/
lemma eq_of_sent_eq {xs xs' ys ys' : List Token} (h : xs ++ ys = xs' ++ ys')
    (hsent : sent parameters number xs = sent parameters number xs') : xs = xs' := by
  have hnil : ∀ zs, sent parameters number zs = [] → zs = [] := by
    rintro (_ | ⟨t, zs⟩) hzs
    · rfl
    · rw [sent_cons, List.append_eq_nil_iff] at hzs
      cases t with
      | reference letters =>
        have hplaced := placed_written parameters number letters
        exact absurd (List.map_eq_nil_iff.mp hzs.1) hplaced.ne_nil
      | _ => exact absurd hzs.1 (List.cons_ne_nil _ _)
  rcases List.append_eq_append_iff.mp h with ⟨zs, rfl, -⟩ | ⟨zs, rfl, -⟩
  · rw [sent_append] at hsent
    rw [hnil zs (List.self_eq_append_right.mp hsent), List.append_nil]
  · rw [sent_append] at hsent
    rw [hnil zs (List.self_eq_append_right.mp hsent.symm), List.append_nil]

/-- No placeholder of the query is written for a reference. -/
lemma WrittenFor.not_own (h : WrittenFor parameters number name ts before digits after) :
    ¬ Own parameters number ts before digits after := by
  rintro ⟨xs', ys', hown, hsent, -⟩
  obtain ⟨xs, letters, ys, rfl, -, -, rfl, -, -⟩ := h
  obtain rfl := eq_of_sent_eq hown.row hsent.symm
  exact Token.noConfusion (List.cons.inj (List.append_cancel_left hown.row)).1

/-- A placeholder of the query is sent with it. -/
lemma Placeholder.own (h : Placeholder ts before digits after) :
    Own parameters number ts (sent parameters number before) digits
      (sent parameters number after) :=
  ⟨before, after, h, rfl, rfl⟩

end Origins

/-! ## What placeholders take -/

section Values

variable {parameters} {ts before after : List Token} {digits : List Char} {name : String}
  {p : Prepared}

/-- A placeholder takes the value of the name that has its number. -/
lemma Numbered.valueAt_iff (h : Numbered parameters ts p) (v : Json) :
    p.valueAt digits = some v ↔ ∃ name ∈ boundNames parameters ts,
      rank (boundNames parameters ts) name = Nat.ofDigitChars 10 digits 0 ∧
        Keyed.find? name parameters = some v := by
  unfold Prepared.valueAt
  split
  · rename_i hzero
    simp [rank, hzero]
  · rename_i k hk
    rw [hk]
    constructor
    · intro hvalue
      obtain ⟨hlt, -⟩ := List.getElem?_eq_some_iff.mp hvalue
      obtain ⟨name, hname, hrank⟩ := h.used (k + 1) ⟨by omega, hlt⟩
      refine ⟨name, hname, hrank, ?_⟩
      rw [← h.value name hname, hrank, Nat.add_sub_cancel, hvalue]
    · rintro ⟨name, hname, hrank, hfind⟩
      rw [← hfind, ← h.value name hname, hrank, Nat.succ_eq_add_one, Nat.add_sub_cancel]

/-- The placeholder of a reference takes the value of its name. -/
lemma Numbered.valueAt_writtenFor (h : Numbered parameters ts p)
    (hall : ∀ name ∈ references ts, Keyed.find? name parameters ≠ none)
    (hwritten : WrittenFor parameters (rank (boundNames parameters ts)) name ts before digits
      after) : p.valueAt digits = Keyed.find? name parameters := by
  obtain ⟨xs, letters, ys, hts, rfl, hnull, -, rfl, -⟩ := hwritten
  have hmem : String.ofList letters ∈ references ts :=
    mem_references (t := .reference letters) (by simp [hts]) rfl
  obtain ⟨v, hv⟩ := Option.ne_none_iff_exists'.mp (hall _ hmem)
  have hbound : String.ofList letters ∈ boundNames parameters ts :=
    mem_boundNames.mpr ⟨hmem, isBound_iff.mpr ⟨v, hv, fun h => hnull (h ▸ hv)⟩⟩
  rw [hv, h.valueAt_iff v]
  exact ⟨_, hbound, Nat.ofDigitChars_ten_toDigits.symm, hv⟩

end Values

/-! ## The query that is sent -/

section Outcome

variable {parameters} {sql : String} {p : Prepared}

/-- A query that is sent has numbers for all its names, and its tokens are those written for
the query. -/
lemma numbered_of_bind (hp : parameters ≠ []) (h : bind parameters sql = .ok p) :
    (∀ name ∈ references (tokens sql.toList), Keyed.find? name parameters ≠ none) ∧
      Numbered parameters (tokens sql.toList) p := by
  rw [bind_eq hp] at h
  split at h
  · simp at h
  · rename_i hfind
    obtain rfl := Except.ok.inj h
    have hall : ∀ name ∈ references (tokens sql.toList), Keyed.find? name parameters ≠ none :=
      fun name hname => mt isMissing_iff.mpr (List.find?_eq_none.mp hfind name hname)
    exact ⟨hall, numbered_place hall⟩

lemma tokens_of_bind (hp : parameters ≠ []) (h : bind parameters sql = .ok p) :
    tokens p.text.toList =
      sent parameters (rank (boundNames parameters (tokens sql.toList))) (tokens sql.toList) := by
  rw [(numbered_of_bind hp h).2.text]
  exact tokens_flatMap_written parameters _ sql.toList

/-- Where the placeholders of a query that is sent come from, whatever the query and its
parameters are. -/
theorem placeholder_origins (hp : parameters ≠ []) (h : bind parameters sql = .ok p) :
    (∃! ts, Scan sql.toList ts) ∧ (∃! us, Scan p.text.toList us) ∧
      ∀ ts us, Scan sql.toList ts → Scan p.text.toList us →
        PlaceholderOrigins parameters ts us p := by
  refine ⟨⟨_, scan_iff.mpr rfl, fun _ => scan_iff.mp⟩,
    ⟨_, scan_iff.mpr rfl, fun _ => scan_iff.mp⟩, fun ts us hts hus => ?_⟩
  obtain rfl := scan_iff.mp hts
  obtain rfl := scan_iff.mp hus
  obtain ⟨hall, hnumbered⟩ := numbered_of_bind hp h
  have hchain := isChain_tokens sql.toList
  rw [tokens_of_bind hp h]
  exact {
    row := rfl
    origin_iff := fun before digits after =>
      ⟨fun h => h.origin hchain,
        fun h => h.elim (fun ⟨_, hwritten⟩ => hwritten.placeholder hchain) Own.placeholder⟩
    apart := fun _ _ _ _ hwritten => hwritten.not_own
    fresh_iff := by
      constructor
      · intro hfresh before digits after hown
        obtain ⟨name, hwritten⟩ := hfresh _ _ _ hown.own.placeholder
        exact hwritten.not_own hown.own
      · intro hnone before digits after hplaceholder
        rcases hplaceholder.origin hchain with hwritten | ⟨xs, ys, hown, -, -⟩
        · exact hwritten
        · exact absurd hown (hnone _ _ _)
    value := fun _ _ _ _ hwritten => hnumbered.valueAt_writtenFor hall hwritten
    captured := fun _ _ _ _ v => hnumbered.valueAt_iff v }

/-- A query with a placeholder of its own and a reference. -/
def capturingQuery : String := "SELECT * FROM revenue WHERE customer = $1 AND skill = :skill"

def capturingParameters : List (String × Json) := [("skill", .string "SAP")]

lemma bind_capturingQuery : ∃ p, bind capturingParameters capturingQuery = .ok p := by
  have hsome : (bind capturingParameters capturingQuery).toOption.isSome = true := by
    decide +kernel
  cases hbind : bind capturingParameters capturingQuery with
  | error e => simp [hbind, Except.toOption] at hsome
  | ok p => exact ⟨p, rfl⟩

theorem placeholder_origins_capturingQuery :
    capturingParameters ≠ [] ∧ ∃ p, bind capturingParameters capturingQuery = .ok p ∧
      (∃! ts, Scan capturingQuery.toList ts) ∧ (∃! us, Scan p.text.toList us) ∧
        ∀ ts us, Scan capturingQuery.toList ts → Scan p.text.toList us →
          PlaceholderOrigins capturingParameters ts us p := by
  obtain ⟨p, hbind⟩ := bind_capturingQuery
  exact ⟨List.cons_ne_nil _ _, p, hbind, placeholder_origins (List.cons_ne_nil _ _) hbind⟩

example : (bind capturingParameters capturingQuery).toOption.map Prepared.text =
    some "SELECT * FROM revenue WHERE customer = $1 AND skill = $1" := by
  decide +kernel

/-- Not every placeholder of a query that is sent is written for a reference. -/
theorem not_all_writtenFor :
    ¬ ∀ (parameters : List (String × Json)) (sql : String) (p : Prepared), parameters ≠ [] →
      bind parameters sql = .ok p → ∀ ts us, Scan sql.toList ts → Scan p.text.toList us →
        ∀ before digits after, Placeholder us before digits after → ∃ name,
          WrittenFor parameters (rank (boundNames parameters ts)) name ts before digits after := by
  intro hall
  obtain ⟨p, hbind⟩ := bind_capturingQuery
  have hne : capturingParameters ≠ [] := List.cons_ne_nil _ _
  have hrow : tokens capturingQuery.toList =
      tokens "SELECT * FROM revenue WHERE customer = ".toList ++
        .plain '$' :: (['1'].map .plain ++ tokens " AND skill = :skill".toList) := by
    decide +kernel
  have hplaceholder : Placeholder (tokens capturingQuery.toList)
      (tokens "SELECT * FROM revenue WHERE customer = ".toList) ['1']
      (tokens " AND skill = :skill".toList) := by
    refine ⟨hrow, by decide, by decide, fun c hc => ?_⟩
    obtain rfl : ' ' = c := by simpa using head?_of_tokens hc
    decide
  have hown : Own capturingParameters
      (rank (boundNames capturingParameters (tokens capturingQuery.toList)))
      (tokens capturingQuery.toList) _ ['1'] _ := hplaceholder.own
  obtain ⟨name, hwritten⟩ := hall capturingParameters capturingQuery p hne hbind _ _
    (scan_iff.mpr rfl) (scan_iff.mpr (tokens_of_bind hne hbind).symm) _ _ _ hown.placeholder
  exact hwritten.not_own hown

end Outcome

end RevenueDesk.Sql
