/-
# The column list of an index

The columns of an index are read off the statement that creates it.  The text between the first
parenthesis and the one that closes it is cut at the commas that stand in no other parentheses:
what is told of an index does not depend on the text in front of its column list, nor on the text
behind it.

* `entries?_eq_some_iff`, `entries?_eq_none_iff`: a text has a column list, which is cut into
  entries in one way, or its first parenthesis is never closed;
* `Reading.depth_nonneg`: the parentheses are counted in step with the text, and the count never
  goes below zero;
* `columns_by_nesting`: the columns are what the entries name.
-/
import RevenueDesk.Catalog.IndexColumns
import RevenueDesk.Proofs.Sql.Nesting
import RevenueDesk.Proofs.Text.Trimming

namespace RevenueDesk.Catalog

open Sql (NeverCloses Contained nested depthAfter)

/-! ## Entries -/

/-- An entry of a column list: it closes just the parentheses that it opens, and its commas stand
inside them. -/
structure IsEntry (entry : List Char) : Prop where
  contained : Contained entry
  commas : ∀ p, p ++ [','] <+: entry → p.count ')' < p.count '('

/-- The beginning of an entry, behind which `depth` parentheses are open. -/
structure Begins (depth : Nat) (text : List Char) : Prop where
  never : NeverCloses text
  count_eq : text.count '(' = depth + text.count ')'
  commas : ∀ p, p ++ [','] <+: text → p.count ')' < p.count '('

variable {depth : Nat} {text current : List Char} {c : Char}

lemma begins_zero_iff : Begins 0 text ↔ IsEntry text := by
  constructor
  · exact fun h => ⟨⟨h.never, by simpa using h.count_eq⟩, h.commas⟩
  · exact fun h => ⟨h.contained.1, by simpa using h.contained.2, h.commas⟩

lemma begins_nil : Begins 0 [] := ⟨by simp [NeverCloses], rfl, by simp⟩

/-- An entry is begun one character at a time: parentheses that are not open are not closed, and
no comma stands outside parentheses. -/
lemma begins_concat_iff {depth' : Nat} :
    Begins depth' (text ++ [c]) ↔ ∃ depth, Begins depth text ∧
      ¬ (c = ')' ∧ depth = 0) ∧ ¬ (c = ',' ∧ depth = 0) ∧ nested depth c = depth' := by
  constructor
  · intro h
    have hprefix : text <+: text ++ [c] := List.prefix_append text [c]
    have hle := h.never text hprefix
    have hclose : ¬ (c = ')' ∧ text.count '(' - text.count ')' = 0) := by
      rintro ⟨rfl, hzero⟩
      have hall := h.never _ List.prefix_rfl
      simp only [List.count_append, List.count_singleton_self, List.count_singleton, beq_iff_eq,
        Char.reduceEq, if_false] at hall
      omega
    refine ⟨text.count '(' - text.count ')', ⟨fun p hp => h.never p (hp.trans hprefix), by omega,
      fun p hp => h.commas p (hp.trans hprefix)⟩, hclose, ?_, ?_⟩
    · rintro ⟨rfl, hzero⟩
      have hinside := h.commas text List.prefix_rfl
      omega
    · have hcount := Sql.count_nested hclose []
      have hall := h.count_eq
      rw [List.count_append, List.count_append] at hall
      simp only [List.count_nil, Nat.add_zero] at hcount
      omega
  · rintro ⟨depth, h, hclose, hcomma, rfl⟩
    have hcount := Sql.count_nested hclose []
    have hopen := h.count_eq
    simp only [List.count_nil, Nat.add_zero] at hcount
    refine ⟨fun p hp => ?_, ?_, fun p hp => ?_⟩
    · rcases List.prefix_concat_iff.mp hp with rfl | hp
      · rw [List.count_append, List.count_append]
        omega
      · exact h.never p hp
    · rw [List.count_append, List.count_append]
      omega
    · rcases List.prefix_concat_iff.mp hp with hwhole | hp
      · obtain ⟨rfl, hlast⟩ := List.append_inj' hwhole rfl
        obtain rfl : ',' = c := by simpa using hlast
        have hdepth : depth ≠ 0 := fun hzero => hcomma ⟨rfl, hzero⟩
        omega
      · exact h.commas p hp

/-! ## Cutting -/

lemma entriesFrom?_cons (depth : Nat) (current : List Char) (done : List (List Char)) (c : Char)
    (cs : List Char) :
    entriesFrom? depth current done (c :: cs) =
      if c = ')' ∧ depth = 0 then some (current.reverse :: done).reverse
      else if c = ',' ∧ depth = 0 then entriesFrom? 0 [] (current.reverse :: done) cs
      else entriesFrom? (nested depth c) (c :: current) done cs := by
  unfold nested
  by_cases hopen : c = '('
  · simp [entriesFrom?, hopen]
  · by_cases hclose : c = ')'
    · cases depth <;> simp [entriesFrom?, hclose]
    · by_cases hcomma : c = ',' ∧ depth = 0
      · simp [entriesFrom?, hcomma]
      · simp [entriesFrom?, hopen, hclose, hcomma]

/-- The beginning of an entry is passed over. -/
lemma Begins.entriesFrom?_append (h : Begins depth text) (done : List (List Char))
    (ys : List Char) :
    entriesFrom? 0 [] done (text ++ ys) = entriesFrom? depth text.reverse done ys := by
  induction text using List.reverseRecOn generalizing depth ys with
  | nil =>
    obtain rfl : depth = 0 := by simpa using h.count_eq.symm
    rfl
  | append_singleton text c ih =>
    obtain ⟨depth, hbegins, hclose, hcomma, rfl⟩ := begins_concat_iff.mp h
    rw [List.append_assoc, List.singleton_append, ih hbegins, entriesFrom?_cons, if_neg hclose,
      if_neg hcomma, List.reverse_append, List.reverse_singleton, List.singleton_append]

/-- Entries that are joined by commas are cut apart again. -/
lemma entriesFrom?_intercalate {entries : List (List Char)} (hne : entries ≠ [])
    (h : ∀ entry ∈ entries, IsEntry entry) (done : List (List Char)) (behind : List Char) :
    entriesFrom? 0 [] done ([','].intercalate entries ++ ')' :: behind) =
      some (done.reverse ++ entries) := by
  induction entries generalizing done with
  | nil => exact absurd rfl hne
  | cons entry entries ih =>
    obtain ⟨hentry, hentries⟩ := List.forall_mem_cons.mp h
    have hbegins := begins_zero_iff.mpr hentry
    cases entries with
    | nil =>
      rw [List.intercalate_singleton, hbegins.entriesFrom?_append, entriesFrom?_cons,
        if_pos ⟨rfl, rfl⟩]
      simp
    | cons next entries =>
      rw [List.intercalate_cons_cons, List.append_assoc, List.append_assoc,
        hbegins.entriesFrom?_append, List.singleton_append, entriesFrom?_cons, if_neg (by simp),
        if_pos ⟨rfl, rfl⟩, ih (List.cons_ne_nil _ _) hentries]
      simp

/-- What is cut apart are entries that were joined by commas. -/
lemma exists_intercalate_of_entriesFrom? {cs : List Char} {done result : List (List Char)}
    (hbegins : Begins depth current.reverse)
    (h : entriesFrom? depth current done cs = some result) :
    ∃ entries behind, entries ≠ [] ∧ (∀ entry ∈ entries, IsEntry entry) ∧
      current.reverse ++ cs = [','].intercalate entries ++ ')' :: behind ∧
      result = done.reverse ++ entries := by
  induction cs generalizing depth current done with
  | nil => simp [entriesFrom?] at h
  | cons c cs ih =>
    rw [entriesFrom?_cons] at h
    split_ifs at h with hclose hcomma
    · -- the list is closed behind the current entry
      obtain ⟨rfl, rfl⟩ := hclose
      obtain rfl := Option.some.inj h
      have hentry := begins_zero_iff.mp hbegins
      exact ⟨[current.reverse], cs, by simp, by simpa using hentry, by simp, by simp⟩
    · -- the current entry ends, and another one begins
      obtain ⟨rfl, rfl⟩ := hcomma
      have hentry := begins_zero_iff.mp hbegins
      obtain ⟨entries, behind, hne, hentries, hcs, rfl⟩ := ih begins_nil h
      refine ⟨current.reverse :: entries, behind, by simp,
        List.forall_mem_cons.mpr ⟨hentry, hentries⟩, ?_, by simp⟩
      rw [List.reverse_nil, List.nil_append] at hcs
      rw [List.intercalate_cons_of_ne_nil hne, hcs]
      simp
    · -- the current entry goes on
      have hlonger : Begins (nested depth c) (c :: current).reverse := by
        rw [List.reverse_cons, begins_concat_iff]
        exact ⟨depth, hbegins, hclose, hcomma, rfl⟩
      obtain ⟨entries, behind, hne, hentries, hcs, rfl⟩ := ih hlonger h
      exact ⟨entries, behind, hne, hentries, by simpa using hcs, rfl⟩

/-- A text is cut into entries up to the parenthesis that is not opened in it. -/
theorem entriesFrom?_eq_some_iff {inner : List Char} {entries : List (List Char)} :
    entriesFrom? 0 [] [] inner = some entries ↔
      entries ≠ [] ∧ (∀ entry ∈ entries, IsEntry entry) ∧
        ∃ behind, inner = [','].intercalate entries ++ ')' :: behind := by
  constructor
  · intro h
    obtain ⟨entries, behind, hne, hentries, hinner, rfl⟩ :=
      exists_intercalate_of_entriesFrom? begins_nil h
    exact ⟨hne, hentries, behind, hinner⟩
  · rintro ⟨hne, hentries, behind, rfl⟩
    exact entriesFrom?_intercalate hne hentries [] behind

/-- Nothing is cut if the list is never closed. -/
lemma entriesFrom?_eq_none_iff {cs : List Char} {done : List (List Char)} :
    entriesFrom? depth current done cs = none ↔ depthAfter depth cs ≠ none := by
  induction cs generalizing depth current done with
  | nil => simp [entriesFrom?, depthAfter]
  | cons c cs ih =>
    rw [entriesFrom?_cons, depthAfter]
    split_ifs with hclose hcomma
    · simp
    · obtain ⟨rfl, rfl⟩ := hcomma
      exact ih
    · exact ih

lemma depthAfter_ne_none_iff {cs : List Char} : depthAfter 0 cs ≠ none ↔ NeverCloses cs := by
  rw [Option.ne_none_iff_exists']
  constructor
  · rintro ⟨depth, h⟩
    simpa [NeverCloses] using (Sql.depthAfter_eq_some_iff.mp h).1
  · intro h
    have hle := h cs List.prefix_rfl
    refine ⟨cs.count '(' - cs.count ')', Sql.depthAfter_eq_some_iff.mpr ⟨?_, by omega⟩⟩
    simpa [NeverCloses] using h

/-! ## Column lists -/

/-- The entries between the first parenthesis and the one that closes it. -/
def entries? (definition : List Char) : Option (List (List Char)) :=
  match definition.dropWhile (· != '(') with
  | [] => none
  | _ :: inner => entriesFrom? 0 [] [] inner

lemma indexColumns_eq (definition : String) :
    indexColumns definition =
      ((((entries? definition.toList).getD []).map columnName).filter (!·.isEmpty)).map
        String.ofList := by
  unfold indexColumns entries?
  cases definition.toList.dropWhile (· != '(') <;> rfl

/-- The first pair of parentheses holds the entries, joined by commas. -/
structure HasColumnList (definition : List Char) (entries : List (List Char)) : Prop where
  ne_nil : entries ≠ []
  entry : ∀ entry ∈ entries, IsEntry entry
  around : ∃ before behind, '(' ∉ before ∧
    definition = before ++ '(' :: ([','].intercalate entries ++ ')' :: behind)

/-- The first parenthesis, if there is one, is never closed. -/
def NeverClosed (definition : List Char) : Prop :=
  ∀ before inner, '(' ∉ before → definition = before ++ '(' :: inner → NeverCloses inner

variable {definition before inner : List Char} {entries : List (List Char)}

lemma dropWhile_append_paren (h : '(' ∉ before) :
    (before ++ '(' :: inner).dropWhile (· != '(') = '(' :: inner := by
  rw [List.dropWhile_append_of_pos]
  · simp
  · intro c hc
    rw [bne_iff_ne]
    rintro rfl
    exact h hc

lemma entries?_append_paren (h : '(' ∉ before) :
    entries? (before ++ '(' :: inner) = entriesFrom? 0 [] [] inner := by
  rw [entries?, dropWhile_append_paren h]

/-- A text without a parenthesis, or the first one with what stands around it. -/
lemma exists_first_paren (definition : List Char) :
    '(' ∉ definition ∨ ∃ before inner, definition = before ++ '(' :: inner ∧ '(' ∉ before := by
  by_cases h : '(' ∈ definition
  · obtain ⟨before, inner, hsplit, hbefore⟩ := List.eq_append_cons_of_mem h
    exact .inr ⟨before, inner, hsplit, hbefore⟩
  · exact .inl h

lemma dropWhile_eq_nil_of_notMem (h : '(' ∉ definition) :
    definition.dropWhile (· != '(') = [] := by
  rw [List.dropWhile_eq_nil_iff]
  intro c hc
  rw [bne_iff_ne]
  rintro rfl
  exact h hc

lemma entries?_of_notMem (h : '(' ∉ definition) : entries? definition = none := by
  rw [entries?, dropWhile_eq_nil_of_notMem h]

theorem entries?_eq_some_iff : entries? definition = some entries ↔
    HasColumnList definition entries := by
  constructor
  · intro h
    rcases exists_first_paren definition with hnone | ⟨before, inner, rfl, hbefore⟩
    · simp [entries?_of_notMem hnone] at h
    · rw [entries?_append_paren hbefore, entriesFrom?_eq_some_iff] at h
      obtain ⟨hne, hentries, behind, rfl⟩ := h
      exact ⟨hne, hentries, before, behind, hbefore, rfl⟩
  · rintro ⟨hne, hentries, before, behind, hbefore, rfl⟩
    rw [entries?_append_paren hbefore, entriesFrom?_eq_some_iff]
    exact ⟨hne, hentries, behind, rfl⟩

theorem entries?_eq_none_iff : entries? definition = none ↔ NeverClosed definition := by
  rcases exists_first_paren definition with hnone | ⟨before, inner, rfl, hbefore⟩
  · refine iff_of_true (entries?_of_notMem hnone) fun before inner _ hsplit => ?_
    exact absurd (by simp [hsplit]) hnone
  · rw [entries?_append_paren hbefore, entriesFrom?_eq_none_iff, depthAfter_ne_none_iff]
    constructor
    · intro h before' inner' hbefore' hsplit
      have hsame := congrArg (List.dropWhile (· != '(')) hsplit
      rw [dropWhile_append_paren hbefore, dropWhile_append_paren hbefore'] at hsame
      exact (List.cons.inj hsame).2 ▸ h
    · exact fun h => h before inner hbefore rfl

/-! ## Counting -/

/-- Where the reading of a column list stands. -/
structure Reading where
  /-- How many parentheses are open, the first one among them. -/
  depth : ℤ
  /-- The entry so far, last character first. -/
  current : List Char
  /-- The entries before it, last one first. -/
  done : List (List Char)
  /-- The first parenthesis is closed, and nothing more is read. -/
  closed : Bool

namespace Reading

/-- Nothing is read. -/
def start : Reading := ⟨0, [], [], false⟩

/-- Read a character; the count is not kept from going below zero. -/
def step (r : Reading) (c : Char) : Reading :=
  if r.closed then r
  else if c = '(' then
    { r with
      depth := r.depth + 1
      current := if r.depth + 1 = 1 then r.current else c :: r.current }
  else if c = ')' then
    if r.depth - 1 = 0 then ⟨r.depth - 1, [], r.current.reverse :: r.done, true⟩
    else { r with depth := r.depth - 1, current := c :: r.current }
  else if c = ',' ∧ r.depth = 1 then
    { r with current := [], done := r.current.reverse :: r.done }
  else { r with current := c :: r.current }

/-- Where the reading stands behind a text. -/
def after (text : List Char) : Reading := text.foldl step start

/-- The entries, once the first parenthesis is closed. -/
def entries? (r : Reading) : Option (List (List Char)) :=
  if r.closed then some r.done.reverse else none

lemma foldl_step_of_closed {r : Reading} (h : r.closed = true) (cs : List Char) :
    cs.foldl step r = r := by
  induction cs with
  | nil => rfl
  | cons c cs ih =>
    have hstep : step r c = r := by simp [step, h]
    rw [List.foldl_cons, hstep, ih]

/-- Inside the first parenthesis. -/
lemma step_inside (depth : Nat) (current : List Char) (done : List (List Char)) (c : Char) :
    step ⟨depth + 1, current, done, false⟩ c =
      if c = ')' ∧ depth = 0 then ⟨0, [], current.reverse :: done, true⟩
      else if c = ',' ∧ depth = 0 then ⟨1, [], current.reverse :: done, false⟩
      else ⟨nested depth c + 1, c :: current, done, false⟩ := by
  have hmore : ¬ (depth : ℤ) + 1 + 1 = 1 := by omega
  unfold nested step
  by_cases hopen : c = '('
  · simp [hopen, hmore]
  · by_cases hclose : c = ')'
    · cases depth with
      | zero => simp [hclose]
      | succ depth =>
        have hless : ¬ (depth : ℤ) + 1 = 0 := by omega
        simp [hclose, hless]
    · by_cases hcomma : c = ',' ∧ depth = 0
      · simp [hcomma]
      · simp [hopen, hclose, hcomma]

/-- Character by character the same entries are read. -/
lemma entries?_foldl_step (depth : Nat) (current : List Char) (done : List (List Char))
    (inner : List Char) :
    (inner.foldl step ⟨depth + 1, current, done, false⟩).entries? =
      entriesFrom? depth current done inner := by
  induction inner generalizing depth current done with
  | nil => rfl
  | cons c cs ih =>
    rw [List.foldl_cons, step_inside, entriesFrom?_cons]
    split_ifs with hclose hcomma
    · rw [foldl_step_of_closed rfl]
      rfl
    · exact ih 0 [] _
    · exact ih _ _ _

lemma entries?_after (definition : List Char) :
    (after (definition.dropWhile (· != '('))).entries? = Catalog.entries? definition := by
  rcases exists_first_paren definition with hnone | ⟨before, inner, rfl, hbefore⟩
  · rw [entries?_of_notMem hnone]
    have hnil : definition.dropWhile (· != '(') = [] := dropWhile_eq_nil_of_notMem hnone
    rw [hnil]
    rfl
  · rw [entries?_append_paren hbefore, dropWhile_append_paren hbefore]
    exact entries?_foldl_step 0 [] [] inner

lemma depth_step {r : Reading} (h : r.closed = false) (c : Char) :
    (r.step c).depth = r.depth + [c].count '(' - [c].count ')' := by
  unfold step
  by_cases hopen : c = '('
  · simp [h, hopen]
  · by_cases hclose : c = ')'
    · by_cases hlast : r.depth - 1 = 0 <;> simp [h, hclose, hlast]
    · by_cases hcomma : c = ',' ∧ r.depth = 1 <;> simp [h, hopen, hclose, hcomma]

lemma closed_step_iff {r : Reading} (h : r.closed = false) (c : Char) :
    (r.step c).closed = true ↔ c = ')' ∧ r.depth = 1 := by
  unfold step
  by_cases hopen : c = '('
  · simp [h, hopen]
  · by_cases hclose : c = ')'
    · by_cases hlast : r.depth - 1 = 0
      · simp [h, hclose, sub_eq_zero.mp hlast]
      · simp [h, hclose, hlast, mt sub_eq_zero.mpr hlast]
    · by_cases hcomma : c = ',' ∧ r.depth = 1 <;> simp [h, hopen, hclose, hcomma]

/-- What is known of the count behind a text: as long as the first parenthesis is open, it is the
number of those that are, and behind it zero. -/
structure Counts (r : Reading) (text : List Char) : Prop where
  of_closed : r.closed = true → r.depth = 0
  of_open : r.closed = false → r.depth = text.count '(' - text.count ')'
  one_le : r.closed = false → 1 ≤ r.depth

lemma Counts.nonneg {r : Reading} (h : Counts r text) : 0 ≤ r.depth := by
  cases hclosed : r.closed with
  | true => exact (h.of_closed hclosed).ge
  | false => exact zero_le_one.trans (h.one_le hclosed)

/-- A character leaves the count right, and never lets it fall below zero. -/
lemma Counts.step {r : Reading} (h : Counts r text) (c : Char) :
    Counts (r.step c) (text ++ [c]) := by
  cases hclosed : r.closed with
  | true =>
    have hstep : r.step c = r := foldl_step_of_closed hclosed [c]
    rw [hstep]
    exact ⟨h.of_closed, by simp [hclosed], by simp [hclosed]⟩
  | false =>
    have hone := h.one_le hclosed
    have hdepth := depth_step hclosed c
    have hends := closed_step_iff hclosed c
    refine ⟨fun hend => ?_, fun _ => ?_, fun hopen => ?_⟩
    · obtain ⟨rfl, hlast⟩ := hends.mp hend
      simpa [hlast] using hdepth
    · rw [hdepth, h.of_open hclosed, List.count_append, List.count_append]
      push_cast
      ring
    · have hnot : ¬ (c = ')' ∧ r.depth = 1) := by
        rw [← hends, hopen]
        exact Bool.false_ne_true
      by_cases hclose : c = ')'
      · subst hclose
        have hmore : r.depth ≠ 1 := fun hlast => hnot ⟨rfl, hlast⟩
        simp only [List.count_singleton_self, List.count_singleton, beq_iff_eq,
          Char.reduceEq, if_false] at hdepth
        omega
      · rw [List.count_singleton (a := ')'), if_neg (by simpa using hclose)] at hdepth
        omega

lemma counts_after (inner : List Char) : Counts (after ('(' :: inner)) ('(' :: inner) := by
  induction inner using List.reverseRecOn with
  | nil => constructor <;> simp [after, start, Reading.step]
  | append_singleton inner c ih =>
    have hstep := ih.step c
    rw [after, ← List.foldl_concat step] at hstep
    exact hstep

/-- The count never goes below zero. -/
theorem depth_nonneg {p : List Char} (h : p <+: definition.dropWhile (· != '(')) :
    0 ≤ (after p).depth := by
  cases p with
  | nil => exact le_rfl
  | cons c inner =>
    obtain rfl : c = '(' := by
      obtain ⟨rest, hrest⟩ := h
      exact Text.eq_of_head?_dropWhile_ne (by rw [← hrest, List.cons_append, List.head?_cons])
    exact (counts_after inner).nonneg

end Reading

/-! ## Columns -/

/-- What an entry names: what stands between its blanks, and there between its double quotes. -/
def Names (entry name : List Char) : Prop :=
  ∃ inner, Text.Trims entry inner ∧ Text.Strips (· == '"') inner name

lemma names_iff {entry name : List Char} : Names entry name ↔ columnName entry = name := by
  simp only [Names, Text.trims_iff, Text.strips_iff, exists_eq_left', columnName]

lemma forall₂_names (entries : List (List Char)) :
    List.Forall₂ Names entries (entries.map columnName) := by
  rw [List.forall₂_map_right_iff, List.forall₂_same]
  exact fun entry _ => names_iff.mpr rfl

lemma indexColumns_of_hasColumnList {definition : String}
    (h : HasColumnList definition.toList entries) :
    indexColumns definition =
      ((entries.map columnName).filter (!·.isEmpty)).map String.ofList := by
  rw [indexColumns_eq, entries?_eq_some_iff.mpr h]
  simp

lemma indexColumns_of_neverClosed {definition : String} (h : NeverClosed definition.toList) :
    indexColumns definition = [] := by
  rw [indexColumns_eq, entries?_eq_none_iff.mpr h]
  rfl

/-- The columns that a definition names: those of its column list, if it has one. -/
inductive NamesColumns (definition : List Char) : List String → Prop where
  | listed (entries names : List (List Char)) (h : HasColumnList definition entries)
      (hnames : List.Forall₂ Names entries names) :
      NamesColumns definition ((names.filter (!·.isEmpty)).map String.ofList)
  | unlisted (h : NeverClosed definition) : NamesColumns definition []

lemma namesColumns_indexColumns (definition : String) :
    NamesColumns definition.toList (indexColumns definition) := by
  rcases hentries : entries? definition.toList with _ | entries
  · have hnever := entries?_eq_none_iff.mp hentries
    rw [indexColumns_of_neverClosed hnever]
    exact .unlisted hnever
  · have hlist := entries?_eq_some_iff.mp hentries
    rw [indexColumns_of_hasColumnList hlist]
    exact .listed entries _ hlist (forall₂_names entries)

/-- The columns of an index are told by the nesting of its definition:

* it has one column list, or its first parenthesis is never closed;
* the columns are the names of the entries in order, empty ones left out, and there are none
  without a column list;
* they do not depend on what stands around the column list;
* all this is read character by character, with a count that never goes below zero. -/
structure ColumnsByNesting (definition : String) : Prop where
  listed : (∃! entries, HasColumnList definition.toList entries) ↔ ¬ NeverClosed definition.toList
  columns : ∀ entries, HasColumnList definition.toList entries →
    ∃ names, List.Forall₂ Names entries names ∧
      indexColumns definition = (names.filter (!·.isEmpty)).map String.ofList
  empty : NeverClosed definition.toList → indexColumns definition = []
  alone : ∀ entries definition', HasColumnList definition.toList entries →
    HasColumnList definition'.toList entries → indexColumns definition' = indexColumns definition
  read : ∀ entries, HasColumnList definition.toList entries ↔
    (Reading.after (definition.toList.dropWhile (· != '('))).entries? = some entries
  counted : ∀ p, p <+: definition.toList.dropWhile (· != '(') → 0 ≤ (Reading.after p).depth

/-- The columns of an index are told by the nesting of its definition. -/
theorem columns_by_nesting (definition : String) : ColumnsByNesting definition where
  listed := by
    rw [← entries?_eq_none_iff, ← Ne, Option.ne_none_iff_exists']
    simp only [← entries?_eq_some_iff]
    constructor
    · exact fun h => h.exists
    · rintro ⟨entries, hentries⟩
      exact ⟨entries, hentries, fun other hother => Option.some.inj (hother.symm.trans hentries)⟩
  columns entries h := ⟨_, forall₂_names entries, indexColumns_of_hasColumnList h⟩
  empty := indexColumns_of_neverClosed
  alone entries definition' h h' := by
    rw [indexColumns_of_hasColumnList h, indexColumns_of_hasColumnList h']
  read entries := by rw [Reading.entries?_after, entries?_eq_some_iff]
  counted _ h := Reading.depth_nonneg h

example : indexColumns "CREATE INDEX i ON t USING btree (lower((a)::text), \"b c\") WHERE (a > 0)" =
    ["lower((a)::text)", "b c"] := by
  decide +kernel

end RevenueDesk.Catalog
