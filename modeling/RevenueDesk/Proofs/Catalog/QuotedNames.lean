/-
# Names in the definition of an index

The database writes every name into the definition of an index in double quotes, with the double
quotes inside it doubled (`createIndex`).  The columns should be read back as they are.  Names are
not read as names, however: a parenthesis or a comma counts wherever it stands, and a double quote
that was doubled stays so.

* `columnName_quoted_eq_iff`: a name comes back from its quotes if it has no double quotes itself;
* `entries_eq_of_intercalate_eq`: no other commas than those between the names can have cut the
  list, if the names come back;
* `readBack`: which columns are read back, for all names in all three places.
-/
import RevenueDesk.Proofs.Catalog.ColumnList

namespace RevenueDesk.Catalog

open Sql (NeverCloses Contained nested depthAfter)

/-! ## Definitions as the database writes them -/

/-- Every double quote twice. -/
def doubled (name : List Char) : List Char :=
  name.flatMap fun c => if c = '"' then ['"', '"'] else [c]

/-- A name in double quotes. -/
def quoted (name : String) : List Char := '"' :: (doubled name.toList ++ ['"'])

/-- The definition of an index up to its column list. -/
def indexHeader (index table : String) : String :=
  String.ofList ("CREATE INDEX ".toList ++ quoted index ++ " ON public.".toList ++ quoted table ++
    " USING btree ".toList)

/-- The definition of an index. -/
def createIndex (index table : String) (columns : List String) : String :=
  String.ofList ((indexHeader index table).toList ++
    '(' :: ([',', ' '].intercalate (columns.map quoted) ++ [')']))

/-- A name that comes back from any place in a column list: its parentheses are balanced, its
commas stand inside them, and it has no double quotes. -/
structure Survives (column : String) : Prop where
  entry : IsEntry column.toList
  plain : '"' ∉ column.toList

/-! ## What is kept of a name -/

section Kept

variable {p : Char → Bool} {cs : List Char} {name : String} {depth : Nat}

lemma filter_dropEndWhile {q : Char → Bool} (h : ∀ c, q c = true → p c = false) (cs : List Char) :
    (Text.dropEndWhile q cs).filter p = cs.filter p := by
  obtain ⟨t, ht, hq⟩ := Text.exists_dropEndWhile_append q cs
  have hnone : t.filter p = [] := List.filter_eq_nil_iff.mpr fun c hc => by simp [h c (hq c hc)]
  conv_rhs => rw [ht, List.filter_append, hnone, List.append_nil]

lemma filter_dropWhile {q : Char → Bool} (h : ∀ c, q c = true → p c = false) (cs : List Char) :
    (cs.dropWhile q).filter p = cs.filter p := by
  have hnone : (cs.takeWhile q).filter p = [] :=
    List.filter_eq_nil_iff.mpr fun c hc => by simp [h c (List.mem_takeWhile_imp hc)]
  conv_rhs => rw [← List.takeWhile_append_dropWhile (p := q) (l := cs), List.filter_append, hnone,
    List.nil_append]

/-- Only blanks and double quotes of an entry are lost. -/
lemma filter_columnName (hblank : ∀ c, Text.isBlank c = true → p c = false)
    (hquote : p '"' = false) (entry : List Char) :
    (columnName entry).filter p = entry.filter p := by
  have hquotes : ∀ c, (c == '"') = true → p c = false := by
    intro c hc
    rwa [beq_iff_eq.mp hc]
  rw [columnName, filter_dropEndWhile hquotes, filter_dropWhile hquotes, Text.trim,
    filter_dropEndWhile hblank, filter_dropWhile hblank]

/-- Only double quotes come in with the quoting. -/
lemma filter_quoted (hquote : p '"' = false) (name : String) :
    (quoted name).filter p = name.toList.filter p := by
  have hdoubled : ∀ cs, (doubled cs).filter p = cs.filter p := by
    intro cs
    induction cs with
    | nil => rfl
    | cons c cs ih =>
      rw [doubled, List.flatMap_cons, List.filter_append, ← doubled, ih, List.filter_cons]
      by_cases hc : c = '"' <;> by_cases hp : p c = true <;> simp_all
  rw [quoted, List.filter_cons, List.filter_append, hdoubled]
  simp [hquote]

/-- The nesting is told by the parentheses. -/
lemma depthAfter_filter (hopen : p '(' = true) (hclose : p ')' = true) :
    depthAfter depth (cs.filter p) = depthAfter depth cs := by
  induction cs generalizing depth with
  | nil => rfl
  | cons c cs ih =>
    by_cases hp : p c = true
    · rw [List.filter_cons_of_pos hp, depthAfter, depthAfter, ih]
    · have hparen : c ≠ '(' ∧ c ≠ ')' := ⟨fun h => hp (h ▸ hopen), fun h => hp (h ▸ hclose)⟩
      rw [List.filter_cons_of_neg hp, depthAfter, ih]
      simp [nested, hparen]

/-- An entry is told by its parentheses and commas. -/
lemma begins_filter_iff (hopen : p '(' = true) (hclose : p ')' = true) (hcomma : p ',' = true) :
    Begins depth (cs.filter p) ↔ Begins depth cs := by
  induction cs using List.reverseRecOn generalizing depth with
  | nil => rfl
  | append_singleton cs c ih =>
    by_cases hp : p c = true
    · simp only [List.filter_append, List.filter_cons_of_pos hp, List.filter_nil,
        begins_concat_iff, ih]
    · have hmark : c ≠ '(' ∧ c ≠ ')' ∧ c ≠ ',' :=
        ⟨fun h => hp (h ▸ hopen), fun h => hp (h ▸ hclose), fun h => hp (h ▸ hcomma)⟩
      simp [List.filter_cons_of_neg hp, begins_concat_iff, ih, nested, hmark]

end Kept

/-- Parentheses and commas, by which a column list is cut. -/
def isMark (c : Char) : Bool := c = '(' || c = ')' || c = ','

/-- Parentheses. -/
def isParen (c : Char) : Bool := c = '(' || c = ')'

lemma isMark_of_isBlank {c : Char} (h : Text.isBlank c = true) : isMark c = false := by
  by_contra hmark
  simp only [isMark, Bool.not_eq_false, Bool.or_eq_true, decide_eq_true_eq] at hmark
  rcases hmark with (rfl | rfl) | rfl <;> revert h <;> decide

lemma isParen_of_isBlank {c : Char} (h : Text.isBlank c = true) : isParen c = false := by
  have hmark := isMark_of_isBlank h
  rw [isMark, Bool.or_eq_false_iff] at hmark
  exact hmark.1

lemma isEntry_congr {xs ys : List Char} (h : xs.filter isMark = ys.filter isMark) :
    IsEntry xs ↔ IsEntry ys := by
  rw [← begins_zero_iff, ← begins_zero_iff, ← begins_filter_iff (p := isMark) rfl rfl rfl, h,
    begins_filter_iff rfl rfl rfl]

lemma contained_congr {xs ys : List Char} (h : xs.filter isParen = ys.filter isParen) :
    Contained xs ↔ Contained ys := by
  rw [Sql.contained_iff_depthAfter, Sql.contained_iff_depthAfter,
    ← depthAfter_filter (p := isParen) rfl rfl, h, depthAfter_filter rfl rfl]

/-! ## Out of the quotes -/

section Doubling

variable {cs : List Char}

lemma length_doubled (cs : List Char) : (doubled cs).length = cs.length + cs.count '"' := by
  induction cs with
  | nil => rfl
  | cons c cs ih =>
    rw [doubled, List.flatMap_cons, List.length_append, ← doubled, ih]
    by_cases hc : c = '"' <;> simp [hc] <;> omega

lemma doubled_eq_self_iff : doubled cs = cs ↔ '"' ∉ cs := by
  constructor
  · intro h
    have hlen := length_doubled cs
    rw [h, Nat.left_eq_add, List.count_eq_zero] at hlen
    exact hlen
  · intro h
    induction cs with
    | nil => rfl
    | cons c cs ih =>
      rw [List.mem_cons, not_or] at h
      obtain ⟨hc, hcs⟩ := h
      rw [doubled, List.flatMap_cons, ← doubled, ih hcs, if_neg (Ne.symm hc)]
      rfl

lemma head?_doubled (cs : List Char) : (doubled cs).head? = cs.head? := by
  cases cs with
  | nil => rfl
  | cons c cs => by_cases hc : c = '"' <;> simp [doubled, hc]

lemma getLast?_doubled (cs : List Char) : (doubled cs).getLast? = cs.getLast? := by
  induction cs using List.reverseRecOn with
  | nil => rfl
  | append_singleton cs c _ => by_cases hc : c = '"' <;> simp [doubled, hc]

end Doubling

/-- Around a name, quotes and all, there are no blanks to trim. -/
lemma trim_quoted (name : String) :
    Text.trim (quoted name) = quoted name ∧ Text.trim (' ' :: quoted name) = quoted name := by
  have hlast : (quoted name).getLast? = some '"' := by
    rw [quoted, ← List.cons_append]
    exact List.getLast?_concat
  have hends : (∀ c, (quoted name).head? = some c → Text.isBlank c = false) ∧
      ∀ c, (quoted name).getLast? = some c → Text.isBlank c = false := by
    constructor
    · rintro c hc
      obtain rfl : '"' = c := by simpa [quoted] using hc
      decide
    · rintro c hc
      rw [hlast] at hc
      obtain rfl := Option.some.inj hc
      decide
  constructor
  · exact Text.trims_iff.mp ⟨⟨[], [], by simp, by simp, by simp⟩, hends.1, hends.2⟩
  · exact Text.trims_iff.mp ⟨⟨[' '], [], by simp, by simp; decide, by simp⟩, hends.1, hends.2⟩

/-- A name comes back from its quotes if it has no double quotes itself. -/
lemma columnName_quoted_eq_iff {name : String} :
    columnName (quoted name) = name.toList ↔ '"' ∉ name.toList := by
  rw [columnName, (trim_quoted name).1, ← doubled_eq_self_iff, ← Text.strips_iff]
  -- the two quotes are stripped, and no more of them if the name comes back
  have hstrips : (∀ c, name.toList.head? = some c → (c == '"') = false) →
      (∀ c, name.toList.getLast? = some c → (c == '"') = false) →
      Text.Strips (· == '"') (quoted name) (doubled name.toList) := by
    intro hhead hlast
    refine ⟨⟨['"'], ['"'], rfl, by simp, by simp⟩, ?_, ?_⟩
    · rwa [head?_doubled]
    · rwa [getLast?_doubled]
  constructor
  · intro h
    have h' := hstrips h.head_ok h.last_ok
    exact h'.eq_dropEndWhile.symm.trans h.eq_dropEndWhile
  · intro h
    have hplain : ∀ c ∈ name.toList, (c == '"') = false := by
      intro c hc
      rw [beq_eq_false_iff_ne]
      rintro rfl
      exact doubled_eq_self_iff.mp h hc
    rw [← h]
    exact hstrips (fun c hc => hplain c (List.mem_of_head? hc))
      fun c hc => hplain c (List.mem_of_getLast? hc)

/-! ## Column lists as the database writes them -/

/-- The entries of a column list: all but the first one stand behind a space. -/
def writtenEntries : List String → List (List Char)
  | [] => []
  | column :: columns => quoted column :: columns.map fun column => ' ' :: quoted column

lemma intercalate_comma_space (first : List Char) (others : List (List Char)) :
    [',', ' '].intercalate (first :: others) =
      [','].intercalate (first :: others.map (' ' :: ·)) := by
  induction others generalizing first with
  | nil => rfl
  | cons next others ih =>
    rw [List.map_cons, List.intercalate_cons_cons, List.intercalate_cons_cons, ih,
      List.intercalate_cons_cons_left]
    simp

lemma intercalate_quoted (columns : List String) :
    [',', ' '].intercalate (columns.map quoted) = [','].intercalate (writtenEntries columns) := by
  cases columns with
  | nil => rfl
  | cons column columns =>
    rw [List.map_cons, intercalate_comma_space, List.map_map]
    rfl

lemma map_writtenEntries {β : Type} {f : List Char → β}
    (h : ∀ name, f (' ' :: quoted name) = f (quoted name)) (columns : List String) :
    (writtenEntries columns).map f = columns.map fun column => f (quoted column) := by
  cases columns with
  | nil => rfl
  | cons column columns =>
    rw [writtenEntries, List.map_cons, List.map_map, List.map_cons]
    exact congrArg _ (List.map_congr_left fun name _ => h name)

lemma map_columnName_writtenEntries (columns : List String) :
    (writtenEntries columns).map columnName =
      columns.map fun column => columnName (quoted column) :=
  map_writtenEntries (fun name => by simp only [columnName, trim_quoted]) columns

lemma map_filter_writtenEntries {p : Char → Bool} (hquote : p '"' = false) (hspace : p ' ' = false)
    (columns : List String) : (writtenEntries columns).map (List.filter p) =
      (columns.map String.toList).map (List.filter p) := by
  rw [map_writtenEntries (f := List.filter p), List.map_map]
  · exact List.map_congr_left fun name _ => filter_quoted hquote name
  · exact fun name => List.filter_cons_of_neg (by simp [hspace])

lemma isEntry_quoted_iff {name : String} : IsEntry (quoted name) ↔ IsEntry name.toList :=
  isEntry_congr (filter_quoted rfl name)

lemma forall_isEntry_writtenEntries_iff {columns : List String} :
    (∀ entry ∈ writtenEntries columns, IsEntry entry) ↔
      ∀ column ∈ columns, IsEntry column.toList := by
  have hspace : ∀ name, IsEntry (' ' :: quoted name) ↔ IsEntry name.toList := fun name =>
    isEntry_congr ((List.filter_cons_of_neg (by decide)).trans (filter_quoted rfl name))
  cases columns with
  | nil => simp [writtenEntries]
  | cons column columns =>
    simp only [writtenEntries, List.forall_mem_cons, List.forall_mem_map, isEntry_quoted_iff,
      hspace]

/-! ## Commas and parentheses -/

section Counting

variable {entries written : List (List Char)}

/-- What a text of entries keeps when the commas between them are dropped. -/
lemma filter_intercalate {p : Char → Bool} (hcomma : p ',' = false)
    (entries : List (List Char)) :
    ([','].intercalate entries).filter p = entries.flatten.filter p := by
  induction entries with
  | nil => rfl
  | cons entry entries ih =>
    by_cases hne : entries = []
    · simp [hne]
    · rw [List.intercalate_cons_of_ne_nil hne, List.flatten_cons, List.filter_append,
        List.filter_append, List.filter_append, ih]
      simp [hcomma]

lemma count_comma_intercalate (hne : entries ≠ []) :
    ([','].intercalate entries).count ',' + 1 = entries.flatten.count ',' + entries.length := by
  induction entries with
  | nil => exact absurd rfl hne
  | cons entry entries ih =>
    by_cases hnil : entries = []
    · simp [hnil]
    · rw [List.intercalate_cons_of_ne_nil hnil, List.flatten_cons, List.count_append,
        List.count_append, List.count_append, List.length_cons, List.count_singleton_self]
      have hrest := ih hnil
      omega

/-- Of two texts that begin alike, a comma ends the same part if the parts have as many commas. -/
lemma append_comma_inj {xs ys rest rest' : List Char} (hcount : xs.count ',' = ys.count ',')
    (h : xs ++ ',' :: rest = ys ++ ',' :: rest') : xs = ys ∧ rest = rest' := by
  rcases List.append_eq_append_iff.mp h with ⟨zs, rfl, hrest⟩ | ⟨zs, rfl, hrest⟩
  all_goals
    cases zs with
    | nil => exact ⟨by simp, by simpa [eq_comm] using hrest⟩
    | cons c zs =>
      obtain ⟨rfl, -⟩ := List.cons.inj hrest
      simp at hcount

/-- Parts that are joined by commas are told by the number of their own commas. -/
lemma entries_eq_of_intercalate_eq
    (hcount : written.map (List.count ',') = entries.map (List.count ','))
    (h : [','].intercalate written = [','].intercalate entries) : written = entries := by
  induction written generalizing entries with
  | nil => simpa using hcount.symm
  | cons entry written ih =>
    cases entries with
    | nil => simp at hcount
    | cons entry' entries =>
      rw [List.map_cons, List.map_cons, List.cons.injEq] at hcount
      obtain ⟨hcount, hrest⟩ := hcount
      have hnil : written = [] ↔ entries = [] := by
        rw [← List.map_eq_nil_iff (f := List.count ','), hrest, List.map_eq_nil_iff]
      by_cases hwritten : written = []
      · simpa [hwritten, hnil.mp hwritten] using h
      · rw [List.intercalate_cons_of_ne_nil hwritten,
          List.intercalate_cons_of_ne_nil (mt hnil.mpr hwritten), List.append_assoc,
          List.append_assoc] at h
        obtain ⟨rfl, htail⟩ := append_comma_inj hcount h
        rw [ih hrest htail]

end Counting

/-! ## Reading back -/

section ReadingBack

variable {index table definition : String} {columns : List String} {entries : List (List Char)}
  {xs ys : List Char} {depth depth' : Nat}

lemma toList_createIndex :
    (createIndex index table columns).toList = (indexHeader index table).toList ++
      '(' :: ([','].intercalate (writtenEntries columns) ++ [')']) := by
  rw [createIndex, String.toList_ofList, intercalate_quoted]

lemma mem_quoted {c : Char} (hquote : c ≠ '"') {name : String} :
    c ∈ quoted name ↔ c ∈ name.toList := by
  have hfilter := filter_quoted (p := (· == c)) (by simpa using hquote.symm) name
  simpa using congrArg (c ∈ ·) hfilter

lemma paren_mem_indexHeader :
    '(' ∈ (indexHeader index table).toList ↔ '(' ∈ index.toList ∨ '(' ∈ table.toList := by
  have hcreate : '(' ∉ "CREATE INDEX ".toList := by decide
  have hon : '(' ∉ " ON public.".toList := by decide
  have husing : '(' ∉ " USING btree ".toList := by decide
  have hquote : '(' ≠ '"' := by decide
  unfold indexHeader
  rw [String.toList_ofList, List.mem_append, List.mem_append, List.mem_append, List.mem_append,
    or_iff_left husing, or_iff_left hon, or_iff_right hcreate, mem_quoted hquote,
    mem_quoted hquote]

/-- Columns that are read come from a column list. -/
lemma exists_entries_of_indexColumns_eq (hne : columns ≠ [])
    (h : indexColumns definition = columns) :
    ∃ entries, entries? definition.toList = some entries ∧
      (entries.map columnName).filter (!·.isEmpty) = columns.map String.toList := by
  rw [indexColumns_eq] at h
  cases hentries : entries? definition.toList with
  | none =>
    rw [hentries] at h
    exact absurd h.symm hne
  | some entries =>
    refine ⟨entries, rfl, ?_⟩
    rw [hentries, Option.getD_some] at h
    rw [← h, List.map_map]
    simp [Function.comp_def]

/-- What counts in the entries counts in the columns that are read of them. -/
lemma filter_flatten_of_read {p : Char → Bool}
    (hblank : ∀ c, Text.isBlank c = true → p c = false) (hquote : p '"' = false)
    (h : (entries.map columnName).filter (!·.isEmpty) = columns.map String.toList) :
    (columns.map String.toList).flatten.filter p = entries.flatten.filter p := by
  rw [← h, List.flatten_filter_not_isEmpty, List.filter_flatten, List.filter_flatten, List.map_map]
  exact congrArg _ (List.map_congr_left fun entry _ => filter_columnName hblank hquote entry)

/-- So it counts alike in the entries that are read and in those that were written. -/
lemma filter_flatten_written_of_read {p : Char → Bool}
    (hblank : ∀ c, Text.isBlank c = true → p c = false) (hquote : p '"' = false)
    (h : (entries.map columnName).filter (!·.isEmpty) = columns.map String.toList) :
    (writtenEntries columns).flatten.filter p = entries.flatten.filter p := by
  have hspace : p ' ' = false := hblank ' ' (by decide)
  rw [← filter_flatten_of_read hblank hquote h, List.filter_flatten, List.filter_flatten,
    map_filter_writtenEntries hquote hspace]

lemma depthAfter_append (h : depthAfter depth xs = some depth') (ys : List Char) :
    depthAfter depth (xs ++ ys) = depthAfter depth' ys := by
  induction xs generalizing depth with
  | nil =>
    obtain rfl : depth = depth' := by simpa [depthAfter] using h
    rfl
  | cons c cs ih =>
    rw [depthAfter] at h
    rw [List.cons_append, depthAfter]
    split at h
    · simp at h
    · rename_i hhere
      rw [if_neg hhere, ih h]

lemma contained_flatten (h : ∀ entry ∈ entries, IsEntry entry) : Contained entries.flatten := by
  rw [Sql.contained_iff_depthAfter]
  induction entries with
  | nil => rfl
  | cons entry entries ih =>
    obtain ⟨hentry, hentries⟩ := List.forall_mem_cons.mp h
    rw [List.flatten_cons,
      depthAfter_append (Sql.contained_iff_depthAfter.mp hentry.contained), ih hentries]

/-- A contained text between an open parenthesis and the one behind it closes nothing in front. -/
lemma neverCloses_around (hxs : NeverCloses xs) (hys : Contained ys) :
    NeverCloses (xs ++ '(' :: (ys ++ [')'])) := by
  rw [← depthAfter_ne_none_iff] at hxs ⊢
  obtain ⟨depth, hdepth⟩ := Option.ne_none_iff_exists'.mp hxs
  have hinside : depthAfter (depth + 1) ys = some (depth + 1) := by
    refine Sql.depthAfter_eq_some_iff.mpr ⟨fun p hp => ?_, by rw [hys.2]⟩
    have hle := hys.1 p hp
    omega
  rw [depthAfter_append hdepth, depthAfter, if_neg (by simp)]
  change depthAfter (depth + 1) _ ≠ none
  rw [depthAfter_append hinside]
  simp [depthAfter]

section Read

variable (h : (entries.map columnName).filter (!·.isEmpty) = columns.map String.toList)
include h

/-- The list that was written is closed by its last parenthesis if the one that is read is. -/
lemma contained_written_of_read (hentries : ∀ entry ∈ entries, IsEntry entry) :
    Contained ([','].intercalate (writtenEntries columns)) := by
  refine (contained_congr ?_).mp (contained_flatten hentries)
  rw [filter_intercalate (p := isParen) rfl,
    filter_flatten_written_of_read (p := isParen) (fun _ => isParen_of_isBlank) rfl h]

/-- Nothing stands behind the list that is read, if no parenthesis was lost. -/
lemma intercalate_eq_of_read {behind : List Char}
    (hinner : [','].intercalate (writtenEntries columns) ++ [')'] =
      [','].intercalate entries ++ ')' :: behind) :
    [','].intercalate (writtenEntries columns) = [','].intercalate entries := by
  have hparens := congrArg (List.filter isParen) hinner
  rw [List.filter_append, List.filter_append, filter_intercalate (p := isParen) rfl,
    filter_intercalate (p := isParen) rfl,
    filter_flatten_written_of_read (p := isParen) (fun _ => isParen_of_isBlank) rfl h,
    List.append_cancel_left_eq] at hparens
  have hnone : ∀ c ∈ behind, isParen c = false := by
    simpa [isParen] using hparens
  rcases List.eq_nil_or_concat behind with rfl | ⟨front, last, rfl⟩
  · exact List.append_cancel_right hinner
  · -- the text ends with a parenthesis
    rw [List.concat_eq_append, ← List.cons_append, ← List.append_assoc] at hinner
    obtain ⟨-, hlast⟩ := List.append_inj' hinner rfl
    obtain rfl : ')' = last := by simpa using hlast
    simpa [isParen] using hnone ')' (by simp)

/-- Every entry is read as it was written. -/
lemma entries_eq_written_of_read (hne : entries ≠ []) (hcolumns : columns ≠ [])
    (hjoined : [','].intercalate (writtenEntries columns) = [','].intercalate entries) :
    writtenEntries columns = entries ∧ entries.map columnName = columns.map String.toList := by
  have hblank : ∀ c, Text.isBlank c = true → (c == ',') = false := by
    intro c hc
    rw [beq_eq_false_iff_ne]
    rintro rfl
    exact absurd hc (by decide)
  have hcommas : ∀ xss : List (List Char),
      xss.map (List.count ',') = (xss.map (List.filter (· == ','))).map List.length := by
    intro xss
    rw [List.map_map]
    exact List.map_congr_left fun xs _ => List.count_eq_length_filter
  have hlength : (writtenEntries columns).length = columns.length := by
    cases columns <;> simp [writtenEntries]
  -- as many commas inside, so as many between, and no entry was left out
  have hsame : entries.length = columns.length := by
    have hinside := congrArg List.length (filter_flatten_written_of_read hblank rfl h)
    rw [← List.count_eq_length_filter, ← List.count_eq_length_filter] at hinside
    have hwritten : writtenEntries columns ≠ [] := by
      rw [← List.length_pos_iff, hlength, List.length_pos_iff]
      exact hcolumns
    have hall := count_comma_intercalate hwritten
    rw [hjoined, count_comma_intercalate hne, hlength] at hall
    omega
  have hread : entries.map columnName = columns.map String.toList := by
    rw [← h]
    refine (List.filter_sublist.eq_of_length ?_).symm
    rw [h, List.length_map, List.length_map, hsame]
  refine ⟨entries_eq_of_intercalate_eq ?_ hjoined, hread⟩
  rw [hcommas, hcommas, map_filter_writtenEntries rfl rfl, ← hread]
  refine congrArg (List.map List.length) ?_
  rw [List.map_map]
  exact List.map_congr_left fun entry _ => filter_columnName hblank rfl entry

end Read

/-- Without parentheses in front, the columns are read back if each of them survives. -/
theorem indexColumns_createIndex_eq_iff (hfront : '(' ∉ (indexHeader index table).toList)
    (hcolumns : columns ≠ []) (hnames : ∀ column ∈ columns, column ≠ "") :
    indexColumns (createIndex index table columns) = columns ↔
      ∀ column ∈ columns, Survives column := by
  have hquotes : ((writtenEntries columns).map columnName = columns.map String.toList) ↔
      ∀ column ∈ columns, '"' ∉ column.toList := by
    rw [map_columnName_writtenEntries, List.map_inj_left]
    exact forall₂_congr fun _ _ => columnName_quoted_eq_iff
  constructor
  · intro h
    obtain ⟨entries, hentries, hread⟩ := exists_entries_of_indexColumns_eq hcolumns h
    rw [toList_createIndex, entries?_append_paren hfront, entriesFrom?_eq_some_iff] at hentries
    obtain ⟨hne, hall, behind, hinner⟩ := hentries
    obtain ⟨rfl, hnamed⟩ := entries_eq_written_of_read hread hne hcolumns
      (intercalate_eq_of_read hread hinner)
    intro column hcolumn
    exact ⟨forall_isEntry_writtenEntries_iff.mp hall column hcolumn,
      hquotes.mp hnamed column hcolumn⟩
  · intro h
    have hentries : entries? (createIndex index table columns).toList =
        some (writtenEntries columns) := by
      rw [toList_createIndex, entries?_append_paren hfront, entriesFrom?_eq_some_iff]
      refine ⟨?_, forall_isEntry_writtenEntries_iff.mpr fun column hc => (h column hc).entry,
        [], rfl⟩
      obtain ⟨column, others, rfl⟩ := List.exists_cons_of_ne_nil hcolumns
      exact List.cons_ne_nil _ _
    have hnonempty : (columns.map String.toList).filter (!·.isEmpty) =
        columns.map String.toList := by
      rw [List.filter_eq_self, List.forall_mem_map]
      intro column hcolumn
      simpa using hnames column hcolumn
    rw [indexColumns_eq, hentries, Option.getD_some,
      hquotes.mpr fun column hcolumn => (h column hcolumn).plain, hnonempty, List.map_map]
    simp [Function.comp_def]

/-- If a parenthesis stands in front and is closed there, the column list is not looked at. -/
lemma indexColumns_createIndex_of_closed (h : ¬ NeverClosed (indexHeader index table).toList)
    (columns : List String) :
    indexColumns (createIndex index table columns) = indexColumns (indexHeader index table) := by
  rw [← entries?_eq_none_iff, ← Ne, Option.ne_none_iff_exists'] at h
  obtain ⟨entries, hentries⟩ := h
  obtain ⟨hne, hall, before, behind, hbefore, htext⟩ := entries?_eq_some_iff.mp hentries
  have hcreate : HasColumnList (createIndex index table columns).toList entries := by
    refine ⟨hne, hall, before,
      behind ++ '(' :: ([','].intercalate (writtenEntries columns) ++ [')']), hbefore, ?_⟩
    rw [toList_createIndex, htext]
    simp only [List.append_assoc, List.cons_append]
  rw [indexColumns_eq, indexColumns_eq, hentries, entries?_eq_some_iff.mpr hcreate]

/-- If a parenthesis stands in front and is not closed there, the columns are not read back. -/
lemma indexColumns_createIndex_ne (hfront : '(' ∈ (indexHeader index table).toList)
    (h : NeverClosed (indexHeader index table).toList) (hcolumns : columns ≠ []) :
    indexColumns (createIndex index table columns) ≠ columns := by
  intro hback
  obtain ⟨entries, hentries, hread⟩ := exists_entries_of_indexColumns_eq hcolumns hback
  obtain ⟨before, inner, htext, hbefore⟩ :=
    (exists_first_paren (indexHeader index table).toList).resolve_left fun hnot => hnot hfront
  rw [toList_createIndex, htext, List.append_assoc, List.cons_append,
    entries?_append_paren hbefore] at hentries
  -- the entries that would be read close all that they open, so the text closes no more
  have hall := (entriesFrom?_eq_some_iff.mp hentries).2.1
  have hnever := neverCloses_around (h before inner hbefore htext)
    (contained_written_of_read hread hall)
  have hnone := hentries.symm.trans
    (entriesFrom?_eq_none_iff.mpr (depthAfter_ne_none_iff.mpr hnever))
  exact Option.some_ne_none _ hnone

/-- Which columns of an index are read back:

* if neither the name of the index nor that of its table has an opening parenthesis, those that
  survive, and no others;
* if one of them has, the columns are read back only if what is read of the two names is
  accidentally the same;
* if the parenthesis is closed there, all columns are read as the same. -/
structure ReadBack (index table : String) (columns : List String) : Prop where
  plain : '(' ∉ index.toList → '(' ∉ table.toList →
    (indexColumns (createIndex index table columns) = columns ↔
      ∀ column ∈ columns, Survives column)
  hidden : '(' ∈ index.toList ∨ '(' ∈ table.toList →
    (indexColumns (createIndex index table columns) = columns ↔
      indexColumns (indexHeader index table) = columns)
  unseen : ¬ NeverClosed (indexHeader index table).toList → ∀ columns',
    indexColumns (createIndex index table columns') = indexColumns (indexHeader index table)

/-- The columns of an index are read back if they survive, and if no parenthesis in front hides
them. -/
theorem readBack (index table : String) {columns : List String} (hcolumns : columns ≠ [])
    (hnames : ∀ column ∈ columns, column ≠ "") : ReadBack index table columns where
  plain hindex htable := by
    refine indexColumns_createIndex_eq_iff ?_ hcolumns hnames
    rw [paren_mem_indexHeader, not_or]
    exact ⟨hindex, htable⟩
  hidden hfront := by
    rw [← paren_mem_indexHeader] at hfront
    by_cases h : NeverClosed (indexHeader index table).toList
    · have hnone : indexColumns (indexHeader index table) ≠ columns := by
        rw [indexColumns_eq, entries?_eq_none_iff.mpr h]
        exact hcolumns.symm
      exact iff_of_false (indexColumns_createIndex_ne hfront h hcolumns) hnone
    · rw [indexColumns_createIndex_of_closed h]
  unseen := indexColumns_createIndex_of_closed

end ReadingBack

theorem readBack_amountColumns :
    ["key", "Amount (EUR, net)"] ≠ [] ∧ (∀ column ∈ ["key", "Amount (EUR, net)"], column ≠ "") ∧
      ReadBack "revenue_amount_idx" "revenue" ["key", "Amount (EUR, net)"] := by
  have hne : ["key", "Amount (EUR, net)"] ≠ [] := by decide
  have hnames : ∀ column ∈ ["key", "Amount (EUR, net)"], column ≠ "" := by decide
  exact ⟨hne, hnames, readBack _ _ hne hnames⟩

/-- A comma, a parenthesis or a double quote in the name of a column, and a parenthesis in the
name of the index or of its table, may each lead to other columns. -/
theorem columns_not_readBack :
    (¬ ∀ (index table : String) (columns : List String),
      columns ≠ [] → (∀ column ∈ columns, column ≠ "") →
        indexColumns (createIndex index table columns) = columns) ∧
    indexColumns (createIndex "i" "t" ["last, first"]) = ["last", "first"] ∧
    indexColumns (createIndex "i" "t" ["a(", "b"]) = [] ∧
    indexColumns (createIndex "i" "t" ["a\"b"]) = ["a\"\"b"] ∧
    indexColumns (createIndex "i (x)" "t" ["a"]) = ["x"] ∧
    indexColumns (createIndex "i" "t (x)" ["a"]) = ["x"] := by
  have hcomma : indexColumns (createIndex "i" "t" ["last, first"]) = ["last", "first"] := by
    decide +kernel
  refine ⟨fun h => ?_, hcomma, by decide +kernel⟩
  have hback := h "i" "t" ["last, first"] (by decide) (by decide)
  rw [hcomma] at hback
  exact absurd hback (by decide)

end RevenueDesk.Catalog
