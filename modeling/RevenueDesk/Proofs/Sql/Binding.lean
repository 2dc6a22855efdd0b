/-
# What is sent in the place of named parameters

`BindsExactly` says all about the query that is sent for a query with named parameters: when
it is refused and for which name, what stands in the place of every token, which value
belongs to which position, and that parameters without a reference make no difference.
Positions are ranks, tokens are those of `Scan`, so nothing of it goes back to how the query
is put together.  `bind_exact` proves it of all queries and of all parameters but none.
-/
import RevenueDesk.Proofs.Number.Numerals
import RevenueDesk.Proofs.Sql.Numbering
import RevenueDesk.Proofs.Sql.Rewriting
import RevenueDesk.Proofs.Sql.Scan
import RevenueDesk.Sql.Prepared

namespace RevenueDesk.Sql

variable (parameters : List (String × Json))

/-- The names in the text whose value is not null, in order, repeats included. -/
def boundNames (ts : List Token) : List String := (references ts).filter (isBound parameters)

/-- What is written for a token, when names have numbers. -/
def written (number : String → ℕ) : Token → List Char
  | .reference name =>
    match Keyed.find? (String.ofList name) parameters with
    | some .null => ['N', 'U', 'L', 'L']
    | _ => '$' :: Nat.toDigits 10 (number (String.ofList name))
  | t => t.text

/-- A query that is sent for the tokens `ts`. -/
structure Numbered (ts : List Token) (p : Prepared) : Prop where
  /-- References give way to null or to the rank of their name, and all else stays. -/
  text : p.text.toList = ts.flatMap (written parameters (rank (boundNames parameters ts)))
  /-- There are as many values as different names. -/
  length : p.values.length = (boundNames parameters ts).toFinset.card
  /-- The value at the position of a name is the value of the parameter. -/
  value : ∀ name ∈ boundNames parameters ts,
    p.values[rank (boundNames parameters ts) name - 1]? = Keyed.find? name parameters
  /-- Names have a position of their own. -/
  distinct : ∀ a ∈ boundNames parameters ts, ∀ b ∈ boundNames parameters ts,
    rank (boundNames parameters ts) a = rank (boundNames parameters ts) b → a = b
  /-- Positions lead to values. -/
  inRange : ∀ name ∈ boundNames parameters ts,
    rank (boundNames parameters ts) name ∈ Set.Icc 1 p.values.length
  /-- Values are at the position of some name. -/
  used : ∀ k ∈ Set.Icc 1 p.values.length, ∃ name ∈ boundNames parameters ts,
    rank (boundNames parameters ts) name = k
  notNull : Json.null ∉ p.values

/-- The outcome of putting parameters in their place. -/
structure BindsExactly (sql : String) (ts : List Token) : Prop where
  /-- The tokens are the whole text. -/
  wholeText : ts.flatMap Token.text = sql.toList
  /-- The query is refused for the first name that has no value. -/
  missing : ∀ name, bind parameters sql = .error ⟨name⟩ ↔
    ∃ before after, references ts = before ++ name :: after ∧
      Keyed.find? name parameters = none ∧ ∀ n ∈ before, Keyed.find? n parameters ≠ none
  /-- If all names have values, it is sent. -/
  bound : (∀ name ∈ references ts, Keyed.find? name parameters ≠ none) →
    ∃ p, bind parameters sql = .ok p ∧ Numbered parameters ts p ∧
      -- without dollar signs of its own, the text shows the positions and nothing else
      ('$' ∉ sql.toList → placeholders p.text.toList =
        (boundNames parameters ts).map fun name =>
          Nat.toDigits 10 (rank (boundNames parameters ts) name))
  /-- Parameters that are not referred to make no difference. -/
  unreferenced : ∀ others, others ≠ [] →
    (∀ name ∈ references ts, Keyed.find? name others = Keyed.find? name parameters) →
    bind others sql = bind parameters sql

/-! ## Names -/

section Names

variable {parameters} {ts : List Token} {name : String}

lemma isMissing_iff : isMissing parameters name = true ↔ Keyed.find? name parameters = none :=
  Option.isNone_iff_eq_none

/-- The name that a query is refused for is the first one that is missing. -/
lemma find?_isMissing_iff {names : List String} :
    names.find? (isMissing parameters) = some name ↔
      ∃ before after, names = before ++ name :: after ∧ Keyed.find? name parameters = none ∧
        ∀ n ∈ before, Keyed.find? n parameters ≠ none := by
  rw [List.find?_eq_some_iff_append, isMissing_iff]
  simp only [Bool.not_eq_true', ← Bool.not_eq_true, isMissing_iff]
  constructor
  · rintro ⟨hnone, before, after, hnames, hbefore⟩
    exact ⟨before, after, hnames, hnone, hbefore⟩
  · rintro ⟨before, after, hnames, hnone, hbefore⟩
    exact ⟨hnone, before, after, hnames, hbefore⟩

lemma isBound_iff : isBound parameters name = true ↔
    ∃ v, Keyed.find? name parameters = some v ∧ v ≠ .null := by
  unfold isBound
  cases Keyed.find? name parameters with
  | none => simp
  | some v => cases v <;> simp [isNull]

lemma not_isBound_of_null (h : Keyed.find? name parameters = some .null) :
    ¬ isBound parameters name = true := by
  rw [isBound_iff]
  rintro ⟨v, hv, hne⟩
  exact hne (Option.some.inj (hv.symm.trans h))

lemma mem_boundNames : name ∈ boundNames parameters ts ↔
    name ∈ references ts ∧ isBound parameters name = true :=
  List.mem_filter

/-- The positions are in the order of the ranks. -/
lemma positions_eq : positions parameters ts = (boundNames parameters ts).eraseDups := rfl

lemma isSome_of_mem_positions (h : name ∈ positions parameters ts) :
    (Keyed.find? name parameters).isSome := by
  rw [positions_eq, List.mem_eraseDups, mem_boundNames] at h
  obtain ⟨v, hv, -⟩ := isBound_iff.mp h.2
  rw [hv, Option.isSome_some]

lemma mem_references {t : Token} (ht : t ∈ ts) (hname : t.name? = some name) :
    name ∈ references ts :=
  List.mem_filterMap.mpr ⟨t, ht, hname⟩

end Names

/-! ## The text -/

section Text

variable {parameters} {ts : List Token}

variable (parameters) in
/-- A reference gives way to null or to a number. -/
lemma written_reference (number : String → ℕ) (name : List Char) :
    (Keyed.find? (String.ofList name) parameters = some .null ∧
      written parameters number (.reference name) = ['N', 'U', 'L', 'L']) ∨
    (Keyed.find? (String.ofList name) parameters ≠ some .null ∧
      written parameters number (.reference name) =
        '$' :: Nat.toDigits 10 (number (String.ofList name))) := by
  simp only [written]
  split
  · rename_i hnull
    exact .inl ⟨hnull, rfl⟩
  · rename_i hnull
    exact .inr ⟨hnull, rfl⟩

/-- If no name is missing, what is put in the place of a token is what is written for it. -/
lemma placeToken_eq {t : Token} (h : ∀ name, t.name? = some name →
    Keyed.find? name parameters ≠ none) (names : List String) :
    placeToken parameters names.eraseDups t = written parameters (rank names) t := by
  unfold placeToken
  cases t with
  | reference name =>
    obtain ⟨v, hv⟩ := Option.ne_none_iff_exists'.mp (h _ rfl)
    simp only [Token.name?, written, isBound, isMissing, rank_eq,
      Digits.numeral_eq_toDigits, hv]
    cases v <;> simp [isNull]
  | _ => rfl

lemma place_text (h : ∀ name ∈ references ts, Keyed.find? name parameters ≠ none) :
    (place parameters ts).text.toList =
      ts.flatMap (written parameters (rank (boundNames parameters ts))) := by
  rw [place, String.toList_ofList]
  refine List.flatMap_congr fun t ht => ?_
  rw [positions_eq]
  exact placeToken_eq (fun name hname => h name (mem_references ht hname)) _

/-! ### Placeholders -/

variable (parameters) in
/-- What is written for a token begins like the token, or with no digit. -/
lemma head?_flatMap_written {cs : List Char} (number : String → ℕ)
    (htext : ts.flatMap Token.text = cs) (hcs : ∀ c ∈ cs.head?, isNameChar c = false) :
    ∀ c ∈ (ts.flatMap (written parameters number)).head?, Text.isDigit c = false := by
  cases ts with
  | nil => simp
  | cons t ts =>
    obtain ⟨d, ds, hd⟩ := List.exists_cons_of_ne_nil t.text_ne_nil
    rw [← htext, List.flatMap_cons, hd] at hcs
    have hdigit : Text.isDigit d = false := by
      have hname := hcs d rfl
      rw [isNameChar, Bool.or_eq_false_iff] at hname
      exact hname.2
    rw [List.flatMap_cons]
    cases t with
    | reference name =>
      rcases written_reference parameters number name with ⟨-, h⟩ | ⟨-, h⟩ <;>
        rw [h] <;> simp [Text.isDigit]
    | _ =>
      rw [written, hd]
      · simpa using hdigit
      · simp

lemma isDigit_toDigits (n : ℕ) : ∀ c ∈ Nat.toDigits 10 n, Text.isDigit c = true := by
  intro c hc
  rw [← Digits.numeral_eq_toDigits, Digits.numeral] at hc
  split at hc
  · obtain rfl := List.mem_singleton.mp hc
    decide
  · exact isDigit_of_mem_digitsOnto n [] (by simp) c hc

/-- Of a text without dollar signs the positions are read back, and nothing else. -/
lemma placeholders_written {cs : List Char} (number : String → ℕ) (hscan : Scan cs ts)
    (hdollar : '$' ∉ cs) (h : ∀ name ∈ references ts, Keyed.find? name parameters ≠ none) :
    placeholders (ts.flatMap (written parameters number)) =
      (boundNames parameters ts).map fun name => Nat.toDigits 10 (number name) := by
  induction hscan with
  | nil => rfl
  | @token cs rest t ts hopens hscan ih =>
    have htext := hopens.reads.text_append
    rw [← htext, List.mem_append, not_or] at hdollar
    cases hopens with
    | @reference d name rest hd hname hend =>
      obtain ⟨hfind, hrest⟩ := List.forall_mem_cons.mp h
      have hread := ih hdollar.2 hrest
      have hhead := head?_flatMap_written parameters number
        (scan_iff.mp hscan ▸ flatMap_text_tokens rest) hend
      rw [List.flatMap_cons]
      rcases written_reference parameters number (d :: name) with
        ⟨hnull, h⟩ | ⟨hnull, h⟩
      · have hnames : boundNames parameters (.reference (d :: name) :: ts) =
            boundNames parameters ts :=
          List.filter_cons_of_neg (not_isBound_of_null hnull)
        rw [h, hnames, placeholders_append (by decide), hread]
      · obtain ⟨v, hv⟩ := Option.ne_none_iff_exists'.mp hfind
        have hnames : boundNames parameters (.reference (d :: name) :: ts) =
            String.ofList (d :: name) :: boundNames parameters ts :=
          List.filter_cons_of_pos (isBound_iff.mpr ⟨v, hv, fun h => hnull (h ▸ hv)⟩)
        rw [h, hnames, placeholders_position (isDigit_toDigits _) hhead, hread, List.map_cons]
    | _ => exact (placeholders_append hdollar.1 _).trans (ih hdollar.2 h)
  | @plain c cs ts hnone hscan ih =>
    obtain ⟨hc, hcs⟩ := not_or.mp (List.mem_cons.not.mp hdollar)
    exact (placeholders_append (by simpa [written, Token.text] using hc) _).trans (ih hcs h)

end Text

/-! ## The values -/

section Values

variable {parameters} {ts : List Token}

variable (parameters ts) in
/-- Names with positions all have values, so the values stand in the order of the names. -/
lemma map_some_values :
    (place parameters ts).values.map some =
      (boundNames parameters ts).eraseDups.map fun name => Keyed.find? name parameters := by
  have hall : ∀ names : List String, (∀ name ∈ names, (Keyed.find? name parameters).isSome) →
      (names.filterMap fun name => Keyed.find? name parameters).map some =
        names.map fun name => Keyed.find? name parameters := by
    intro names hnames
    induction names with
    | nil => rfl
    | cons name names ih =>
      obtain ⟨hname, hrest⟩ := List.forall_mem_cons.mp hnames
      obtain ⟨v, hv⟩ := Option.isSome_iff_exists.mp hname
      rw [List.filterMap_cons, hv, List.map_cons, List.map_cons, hv, ih hrest]
  exact hall _ fun name => isSome_of_mem_positions

lemma length_values : (place parameters ts).values.length =
    (boundNames parameters ts).toFinset.card := by
  have hlength := congrArg List.length (map_some_values parameters ts)
  rwa [List.length_map, List.length_map, length_eraseDups] at hlength

lemma value_of_mem {name : String} (h : name ∈ boundNames parameters ts) :
    (place parameters ts).values[rank (boundNames parameters ts) name - 1]? =
      Keyed.find? name parameters := by
  obtain ⟨v, hv, -⟩ := isBound_iff.mp (mem_boundNames.mp h).2
  have hmem := List.mem_eraseDups.mpr h
  have hvalues := congrArg (·[(boundNames parameters ts).eraseDups.idxOf name]?)
    (map_some_values parameters ts)
  simp only [List.getElem?_map, List.getElem?_idxOf hmem, Option.map_some] at hvalues
  obtain ⟨w, hw, hsome⟩ := Option.map_eq_some_iff.mp hvalues
  rw [rank_eq, Nat.add_sub_cancel, hw, hsome]

lemma null_not_mem_values : Json.null ∉ (place parameters ts).values := by
  intro hmem
  obtain ⟨name, hname, hnull⟩ := List.mem_filterMap.mp hmem
  rw [positions_eq, List.mem_eraseDups, mem_boundNames] at hname
  exact not_isBound_of_null hnull hname.2

lemma numbered_place (h : ∀ name ∈ references ts, Keyed.find? name parameters ≠ none) :
    Numbered parameters ts (place parameters ts) where
  text := place_text h
  length := length_values
  value _ := value_of_mem
  distinct _ ha _ _ := rank_injOn ha
  inRange name hname := by
    rw [length_values]
    exact ⟨Nat.le_add_left 1 _, rank_le hname⟩
  used k hk := by
    rw [length_values] at hk
    exact exists_rank_eq hk.1 hk.2
  notNull := null_not_mem_values

end Values

/-! ## The outcome -/

section Outcome

variable {parameters}

lemma bind_eq (hp : parameters ≠ []) (sql : String) :
    bind parameters sql =
      match (references (tokens sql.toList)).find? (isMissing parameters) with
      | some name => .error ⟨name⟩
      | none => .ok (place parameters (tokens sql.toList)) := by
  have hne : ¬ parameters.isEmpty = true := by rwa [List.isEmpty_iff]
  unfold bind
  exact if_neg hne

section Agree

variable {others : List (String × Json)} {name : String}
  (h : Keyed.find? name others = Keyed.find? name parameters)
include h

lemma isMissing_congr : isMissing others name = isMissing parameters name := by
  rw [isMissing, isMissing, h]

lemma isBound_congr : isBound others name = isBound parameters name := by
  rw [isBound, isBound, h]

end Agree

/-- Parameters that agree on the names in the text have the same outcome. -/
lemma bind_congr {others : List (String × Json)} (hp : parameters ≠ []) (ho : others ≠ [])
    {sql : String} (h : ∀ name ∈ references (tokens sql.toList),
      Keyed.find? name others = Keyed.find? name parameters) :
    bind others sql = bind parameters sql := by
  have hmissing : (references (tokens sql.toList)).find? (isMissing others) =
      (references (tokens sql.toList)).find? (isMissing parameters) := by
    rw [← List.head?_filter, ← List.head?_filter]
    refine congrArg List.head? (List.filter_congr fun name hname => ?_)
    exact isMissing_congr (h name hname)
  have hpositions : positions others (tokens sql.toList) =
      positions parameters (tokens sql.toList) := by
    exact congrArg List.eraseDups (List.filter_congr fun name hname =>
      isBound_congr (h name hname))
  have hplace : place others (tokens sql.toList) = place parameters (tokens sql.toList) := by
    have htext : (tokens sql.toList).flatMap (placeToken others
          (positions parameters (tokens sql.toList))) =
        (tokens sql.toList).flatMap (placeToken parameters
          (positions parameters (tokens sql.toList))) := by
      refine List.flatMap_congr fun t ht => ?_
      unfold placeToken
      cases hname : t.name? with
      | none => rfl
      | some name =>
        have hagree := h name (mem_references ht hname)
        simp only [isMissing_congr hagree, isBound_congr hagree]
    have hvalues : ((positions parameters (tokens sql.toList)).filterMap fun name =>
          Keyed.find? name others) =
        (positions parameters (tokens sql.toList)).filterMap fun name =>
          Keyed.find? name parameters := by
      refine List.filterMap_congr fun name hname => h name ?_
      rw [positions_eq, List.mem_eraseDups, mem_boundNames] at hname
      exact hname.1
    simp only [place, hpositions, htext, hvalues]
  rw [bind_eq ho, bind_eq hp, hmissing, hplace]

/-- Parameters are put in their place exactly, whatever the text and its tokens are. -/
theorem bind_exact (hp : parameters ≠ []) (sql : String) :
    (∃! ts, Scan sql.toList ts) ∧ ∀ ts, Scan sql.toList ts → BindsExactly parameters sql ts := by
  constructor
  · exact ⟨tokens sql.toList, scan_iff.mpr rfl, fun ts hts => scan_iff.mp hts⟩
  intro ts hscan
  obtain rfl := scan_iff.mp hscan
  refine ⟨flatMap_text_tokens _, fun name => ?_, fun hall => ?_, fun others ho hagree => ?_⟩
  · rw [← find?_isMissing_iff, bind_eq hp]
    cases (references (tokens sql.toList)).find? (isMissing parameters) <;> simp
  · have hnone : (references (tokens sql.toList)).find? (isMissing parameters) = none :=
      List.find?_eq_none.mpr fun name hname => mt isMissing_iff.mp (hall name hname)
    refine ⟨place parameters (tokens sql.toList), by rw [bind_eq hp, hnone], numbered_place hall,
      fun hdollar => ?_⟩
    rw [place_text hall]
    exact placeholders_written _ hscan hdollar hall
  · exact bind_congr hp ho hagree

/-- A name in a literal, a null, a name that occurs twice, and a cast. -/
def namingQuery : String := "SELECT ':a', :note FROM revenue WHERE c = :client OR c = :client::text"

/-- Values for its names, and one that it does not refer to. -/
def namingParameters : List (String × Json) :=
  [("client", .string "Acme"), ("note", .null), ("a", .bool true)]

theorem bind_exact_namingQuery :
    namingParameters ≠ [] ∧ (∃! ts, Scan namingQuery.toList ts) ∧
      ∀ ts, Scan namingQuery.toList ts → BindsExactly namingParameters namingQuery ts :=
  ⟨List.cons_ne_nil _ _, bind_exact (List.cons_ne_nil _ _) namingQuery⟩

example : (bind namingParameters namingQuery).toOption.map Prepared.text =
    some "SELECT ':a', NULL FROM revenue WHERE c = $1 OR c = $1::text" := by
  decide +kernel

end Outcome

end RevenueDesk.Sql
