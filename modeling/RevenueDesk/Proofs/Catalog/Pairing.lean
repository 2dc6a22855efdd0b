/-
# Foreign keys of several columns

Every column of a foreign key refers to a column of its own.  The catalog does not say to which
one: it gives a row for every column with every referred column (`FansOut`), in the order of the
columns, and in any order among the rows of one column.

* `foreignKeys_of_fansOut`: the rows leave one foreign key, with its columns in their order and
  the referred columns in the order in which they stand beside the first column;
* `FansOut.referring`: the same rows belong to every foreign key that has its referred columns in
  another order;
* `pairing_of_fansOut`: so the columns are paired as they should be if the first column has its
  rows in that order, which is sure for a single column only.
-/
import Mathlib.Data.List.Perm.Basic
import RevenueDesk.Proofs.Catalog.TableByTable

namespace RevenueDesk.Catalog

/-! ## Columns by first appearance -/

section FirstAppearance

variable {x : String} {xs ys : List String}

lemma eraseDups_sublist (xs : List String) : xs.eraseDups.Sublist xs := by
  induction xs using List.reverseRecOn with
  | nil => simp
  | append_singleton xs x ih =>
    rw [Keyed.eraseDups_concat]
    split
    · exact ih.trans (List.sublist_append_left xs [x])
    · exact ih.append_right [x]

lemma eraseDups_of_nodup (h : xs.Nodup) : xs.eraseDups = xs := by
  refine (eraseDups_sublist xs).eq_of_length ?_
  have hperm : xs.eraseDups.Perm xs :=
    (List.perm_ext_iff_of_nodup (Keyed.nodup_eraseDups xs) h).mpr fun x => List.mem_eraseDups
  exact hperm.length_eq

/-- What comes later and is there already is not seen. -/
lemma eraseDups_append_of_subset (h : ys ⊆ xs) : (xs ++ ys).eraseDups = xs.eraseDups := by
  have hnone : ys.removeAll xs = [] := by
    rw [List.removeAll, List.filter_eq_nil_iff]
    intro y hy
    simpa using h hy
  rw [List.eraseDups_append, hnone, List.eraseDups_nil, List.append_nil]

lemma pairwise_idxOf_le (h : ys.Nodup) :
    ys.Pairwise fun x x' => ys.idxOf x ≤ ys.idxOf x' := by
  rw [List.pairwise_iff_getElem]
  intro i j hi hj hij
  rw [h.idxOf_getElem, h.idxOf_getElem]
  exact Nat.le_of_lt hij

/-- Names that come in the order of a list first appear in that order. -/
lemma eraseDups_eq_of_ordered (hnodup : ys.Nodup) (hmem : ∀ x, x ∈ xs ↔ x ∈ ys)
    (hordered : xs.Pairwise fun x x' => ys.idxOf x ≤ ys.idxOf x') : xs.eraseDups = ys := by
  have hperm : xs.eraseDups.Perm ys := by
    rw [List.perm_ext_iff_of_nodup (Keyed.nodup_eraseDups xs) hnodup]
    simpa using hmem
  refine List.Perm.eq_of_pairwise ?_ (hordered.sublist (eraseDups_sublist xs))
    (pairwise_idxOf_le hnodup) hperm
  intro x x' hx _ hle hle'
  exact (List.idxOf_inj (hperm.mem_iff.mp hx)).mp (Nat.le_antisymm hle hle')

/-- A list in which nothing stands in front of what satisfies `p` but such as does, too. -/
lemma eq_filter_append_filter {ρ : Type} {p : ρ → Bool} {rows : List ρ}
    (h : rows.Pairwise fun row row' => p row' = true → p row = true) :
    rows = rows.filter p ++ rows.filter fun row => !p row := by
  induction rows with
  | nil => rfl
  | cons row rows ih =>
    obtain ⟨hrow, hrows⟩ := List.pairwise_cons.mp h
    by_cases hp : p row = true
    · simpa [hp] using ih hrows
    · have hnone : rows.filter p = [] :=
        List.filter_eq_nil_iff.mpr fun row' hrow' hp' => hp (hrow row' hrow' hp')
      have hall : rows.filter (fun row => !p row) = rows := by
        conv_rhs => rw [ih hrows, hnone]
        rfl
      simp [hp, hnone, hall]

end FirstAppearance

/-! ## The rows of a foreign key -/

namespace ForeignKey

/-- Distinct columns refer to as many distinct columns. -/
structure WellFormed (key : ForeignKey) : Prop where
  ne_nil : key.constrainedColumns ≠ []
  constrained : key.constrainedColumns.Nodup
  referred : key.referredColumns.Nodup
  length_eq : key.constrainedColumns.length = key.referredColumns.length

/-- The foreign key with its referred columns in another order. -/
def referring (key : ForeignKey) (order : List String) : ForeignKey :=
  { key with referredColumns := order }

/-- The row about a column and a referred column. -/
def row (key : ForeignKey) (table column referredColumn : String) : ForeignKeyRow :=
  ⟨table, key.name, column, key.referredTable, referredColumn⟩

/-- A row for every column with every referred column. -/
def fanned (key : ForeignKey) (table : String) : List ForeignKeyRow :=
  key.constrainedColumns.flatMap fun column => key.referredColumns.map (key.row table column)

/-- The referred columns, in the order in which they stand beside the first column. -/
def besideFirst (key : ForeignKey) (own : List ForeignKeyRow) : List String :=
  (own.filter fun row => key.constrainedColumns.head? = some row.column).map
    ForeignKeyRow.referredColumn

end ForeignKey

/-- The rows that the catalog gives of a foreign key: every column with every referred column, in
the order of the columns. -/
structure FansOut (table : String) (key : ForeignKey) (own : List ForeignKeyRow) : Prop where
  perm : own.Perm (key.fanned table)
  ordered : own.Pairwise fun row row' =>
    key.constrainedColumns.idxOf row.column ≤ key.constrainedColumns.idxOf row'.column

/-- The rows about one constraint of a table. -/
def Rows.about (rows : Rows) (table constraint : String) : List ForeignKeyRow :=
  (rows.of table).foreignKeys.filter fun row => row.constraint = constraint

section FansOut

variable {table : String} {key : ForeignKey} {own : List ForeignKeyRow}

lemma ForeignKey.mem_fanned {row : ForeignKeyRow} :
    row ∈ key.fanned table ↔ ∃ column ∈ key.constrainedColumns,
      ∃ referredColumn ∈ key.referredColumns, key.row table column referredColumn = row := by
  simp [fanned]

/-- The rows in the order of the columns on both sides are among those that may come. -/
lemma ForeignKey.WellFormed.fansOut_fanned (hkey : key.WellFormed) :
    FansOut table key (key.fanned table) where
  perm := .rfl
  ordered := by
    rw [ForeignKey.fanned, List.pairwise_flatMap]
    constructor
    · intro column _
      exact List.pairwise_map.mpr (List.pairwise_of_forall fun _ _ => Nat.le_refl _)
    · refine (pairwise_idxOf_le hkey.constrained).imp
        fun {column column'} hle row hrow row' hrow' => ?_
      obtain ⟨referredColumn, -, rfl⟩ := List.mem_map.mp hrow
      obtain ⟨referredColumn', -, rfl⟩ := List.mem_map.mp hrow'
      exact hle

lemma ForeignKey.WellFormed.besideFirst_fanned (hkey : key.WellFormed) :
    key.besideFirst (key.fanned table) = key.referredColumns := by
  obtain ⟨first, others, hcolumns⟩ := List.exists_cons_of_ne_nil hkey.ne_nil
  have hfirst : first ∉ others := by
    have hnodup := hkey.constrained
    rw [hcolumns] at hnodup
    exact (List.nodup_cons.mp hnodup).1
  have hothers :
      (others.flatMap fun column => key.referredColumns.map (key.row table column)).filter
        (fun row => some first = some row.column) = [] := by
    rw [List.filter_eq_nil_iff]
    intro row hrow
    obtain ⟨column, hcolumn, hrow⟩ := List.mem_flatMap.mp hrow
    obtain ⟨_, -, rfl⟩ := List.mem_map.mp hrow
    rw [decide_eq_true_eq, Option.some_inj]
    rintro rfl
    exact hfirst hcolumn
  rw [ForeignKey.besideFirst, ForeignKey.fanned, hcolumns, List.flatMap_cons, List.filter_append,
    List.head?_cons, hothers, List.append_nil, List.filter_map, List.map_map]
  simp [ForeignKey.row, Function.comp_def]

lemma ForeignKey.WellFormed.referring (hkey : key.WellFormed) {order : List String}
    (horder : order.Perm key.referredColumns) : (key.referring order).WellFormed where
  ne_nil := hkey.ne_nil
  constrained := hkey.constrained
  referred := horder.nodup_iff.mpr hkey.referred
  length_eq := hkey.length_eq.trans horder.length_eq.symm

/-- The rows of a foreign key are as well those of the one with its referred columns in another
order. -/
theorem FansOut.referring (h : FansOut table key own) {order : List String}
    (horder : order.Perm key.referredColumns) : FansOut table (key.referring order) own where
  perm := by
    refine h.perm.trans (List.Perm.flatMap_left _ fun column _ => ?_)
    exact (horder.map (key.row table column)).symm
  ordered := h.ordered

variable (h : FansOut table key own) (hkey : key.WellFormed)
include h hkey

lemma FansOut.eraseDups_map_column :
    (own.map ForeignKeyRow.column).eraseDups = key.constrainedColumns := by
  refine eraseDups_eq_of_ordered hkey.constrained (fun column => ?_)
    (List.pairwise_map.mpr h.ordered)
  have hreferred : key.referredColumns ≠ [] := by
    rw [← List.length_pos_iff, ← hkey.length_eq, List.length_pos_iff]
    exact hkey.ne_nil
  obtain ⟨referredColumn, hmem⟩ := List.exists_mem_of_ne_nil _ hreferred
  rw [List.mem_map]
  constructor
  · rintro ⟨row, hrow, rfl⟩
    obtain ⟨column, hcolumn, _, -, rfl⟩ := ForeignKey.mem_fanned.mp (h.perm.mem_iff.mp hrow)
    exact hcolumn
  · intro hcolumn
    refine ⟨key.row table column referredColumn, h.perm.mem_iff.mpr ?_, rfl⟩
    exact ForeignKey.mem_fanned.mpr ⟨column, hcolumn, referredColumn, hmem, rfl⟩

/-- Every referred column stands beside the first column, once. -/
lemma FansOut.perm_besideFirst : (key.besideFirst own).Perm key.referredColumns :=
  ((h.perm.filter _).map _).trans (.of_eq hkey.besideFirst_fanned)

/-- The rows of the first column come first, and name all referred columns. -/
lemma FansOut.eraseDups_map_referredColumn :
    (own.map ForeignKeyRow.referredColumn).eraseDups = key.besideFirst own := by
  obtain ⟨first, others, hcolumns⟩ := List.exists_cons_of_ne_nil hkey.ne_nil
  have hperm := h.perm_besideFirst hkey
  have hsplit := eq_filter_append_filter (p := fun row => key.constrainedColumns.head? =
      some row.column) (h.ordered.imp fun {row row'} hle hrow' => ?_)
  · conv_lhs => rw [hsplit, List.map_append]
    rw [eraseDups_append_of_subset]
    · exact eraseDups_of_nodup (hperm.nodup_iff.mpr hkey.referred)
    · intro x hx
      obtain ⟨row, hrow, rfl⟩ := List.mem_map.mp hx
      have hmem := h.perm.mem_iff.mp (List.mem_of_mem_filter hrow)
      obtain ⟨_, -, referredColumn, hreferred, rfl⟩ := ForeignKey.mem_fanned.mp hmem
      exact hperm.mem_iff.mpr hreferred
  · rw [decide_eq_true_eq] at hrow' ⊢
    rw [(List.idxOf_eq_zero_iff_eq_nil_or_head_eq _).mpr (.inr hrow'), Nat.le_zero,
      List.idxOf_eq_zero_iff_eq_nil_or_head_eq] at hle
    exact hle.resolve_left hkey.ne_nil

lemma FansOut.ne_nil : own ≠ [] := by
  rintro rfl
  exact hkey.ne_nil (h.eraseDups_map_column hkey).symm

end FansOut

/-! ## What is shown of it -/

/-- No two foreign keys have one name, so a name leaves one of them. -/
lemma filter_name_foreignKeysOf {rows : List ForeignKeyRow} {key : ForeignKey}
    (hkey : key ∈ foreignKeysOf rows) :
    (foreignKeysOf rows).filter (fun k => k.name = key.name) = [key] := by
  have hnodup := nodup_name_foreignKeysOf rows
  refine List.perm_singleton.mp ?_
  rw [List.perm_ext_iff_of_nodup (hnodup.of_map.filter _) (List.nodup_singleton key)]
  intro k
  rw [List.mem_filter, decide_eq_true_eq, List.mem_singleton]
  constructor
  · rintro ⟨hk, hname⟩
    exact List.inj_on_of_nodup_map hnodup hk hkey hname
  · rintro rfl
    exact ⟨hkey, rfl⟩

/-- The rows of a foreign key leave it with its referred columns in the order of the first
column's rows, whatever other rows stand among them. -/
theorem foreignKeys_of_fansOut {rows : List ForeignKeyRow} {table : String} {key : ForeignKey}
    (h : FansOut table key (rows.filter fun row => row.constraint = key.name))
    (hkey : key.WellFormed) :
    key.referring (key.besideFirst (rows.filter fun row => row.constraint = key.name)) ∈
      foreignKeysOf rows := by
  obtain ⟨row, own, hown⟩ := List.exists_cons_of_ne_nil (h.ne_nil hkey)
  have hrow : row ∈ rows.filter fun row => row.constraint = key.name := hown ▸ List.mem_cons_self
  have hname : key.name ∈ (foreignKeysOf rows).map ForeignKey.name := by
    rw [map_name_foreignKeysOf, List.mem_eraseDups, List.mem_map]
    exact ⟨row, List.mem_of_mem_filter hrow, of_decide_eq_true (List.mem_filter.mp hrow).2⟩
  obtain ⟨shown, hshown, hsame⟩ := List.mem_map.mp hname
  have hmerges := merges_of_mem_foreignKeysOf hshown
  rw [hsame] at hmerges
  have htarget : shown.referredTable = key.referredTable := by
    obtain ⟨_, -, _, -, rfl⟩ := ForeignKey.mem_fanned.mp (h.perm.mem_iff.mp hrow)
    have htarget := hmerges.target
    rw [hown] at htarget
    exact (Option.some.inj htarget).symm
  have hconstrained := hmerges.constrained.trans (h.eraseDups_map_column hkey)
  have hreferred := hmerges.referred.trans (h.eraseDups_map_referredColumn hkey)
  obtain ⟨name, constrainedColumns, referredTable, referredColumns⟩ := shown
  obtain rfl : name = key.name := hsame
  obtain rfl : constrainedColumns = key.constrainedColumns := hconstrained
  obtain rfl : referredTable = key.referredTable := htarget
  obtain rfl : referredColumns = _ := hreferred
  exact hshown

/-- What a table shows of a foreign key with the rows `own`:

* there is one entry of its name, which has the columns in their order, and all referred columns,
  in the order in which they stand beside the first column;
* so it is the foreign key itself if they stand there in their order, and always if there is one
  column;
* the same rows are those of every foreign key with the referred columns in another order, so
  that of two columns or more another one is shown than they may be meant for;
* any order may come beside the first column. -/
structure Pairing (table : String) (key : ForeignKey) (own : List ForeignKeyRow) (t : Table) :
    Prop where
  name_eq : t.name = table
  one : t.foreignKeys.filter (fun k => k.name = key.name) = [key.referring (key.besideFirst own)]
  complete : (key.besideFirst own).Perm key.referredColumns
  paired_iff : key ∈ t.foreignKeys ↔ key.besideFirst own = key.referredColumns
  single : key.constrainedColumns.length = 1 → key ∈ t.foreignKeys
  undetermined : ∀ order, order.Perm key.referredColumns → FansOut table (key.referring order) own
  mistaken : 2 ≤ key.constrainedColumns.length →
    ∃ order, order.Perm key.referredColumns ∧ key.referring order ∉ t.foreignKeys
  anyOrder : ∀ order, order.Perm key.referredColumns →
    ∃ own', FansOut table key own' ∧ key.besideFirst own' = order

lemma reverse_ne_self {xs : List String} (h : xs.Nodup) (hlen : 2 ≤ xs.length) :
    xs.reverse ≠ xs := by
  intro hreverse
  obtain ⟨x, ys, rfl⟩ := List.exists_cons_of_length_pos (Nat.lt_of_lt_of_le Nat.zero_lt_two hlen)
  obtain ⟨y, ys, rfl⟩ := List.exists_cons_of_length_pos (Nat.le_of_succ_le_succ hlen)
  have hlast := congrArg List.head? hreverse
  rw [List.head?_reverse, List.getLast?_cons_cons, List.head?_cons] at hlast
  exact (List.nodup_cons.mp h).1 (List.mem_of_getLast? hlast)

/-- The columns of a foreign key are paired as they should be if the catalog happens to give the
rows of the first column in the order of the referred columns. -/
theorem pairing_of_fansOut {rows : Rows} {table : String} {key : ForeignKey}
    (htable : table ∈ rows.names) (hkey : key.WellFormed)
    (h : FansOut table key (rows.about table key.name)) :
    ∃ t ∈ assemble rows, Pairing table key (rows.about table key.name) t := by
  have hperm := h.perm_besideFirst hkey
  have hshown := foreignKeys_of_fansOut h hkey
  have hone : (foreignKeysOf (rows.of table).foreignKeys).filter (fun k => k.name = key.name) =
      [key.referring (key.besideFirst (rows.about table key.name))] :=
    filter_name_foreignKeysOf hshown
  have hiff : ∀ order, key.referring order ∈ foreignKeysOf (rows.of table).foreignKeys ↔
      key.besideFirst (rows.about table key.name) = order := by
    intro order
    constructor
    · intro hmem
      have hnamed : key.referring order ∈
          (foreignKeysOf (rows.of table).foreignKeys).filter fun k => k.name = key.name :=
        List.mem_filter.mpr ⟨hmem, decide_eq_true rfl⟩
      rw [hone, List.mem_singleton] at hnamed
      exact (congrArg ForeignKey.referredColumns hnamed).symm
    · rintro rfl
      exact hshown
  refine ⟨tableOf table (rows.of table), mem_assemble.mpr ⟨htable, rfl⟩, ?_⟩
  exact
    { name_eq := rfl
      one := hone
      complete := hperm
      paired_iff := hiff key.referredColumns
      single := by
        intro hlen
        refine (hiff key.referredColumns).mpr ?_
        obtain ⟨column, hcolumn⟩ := List.length_eq_one_iff.mp (hkey.length_eq.symm.trans hlen)
        rw [hcolumn] at hperm ⊢
        exact List.perm_singleton.mp hperm
      undetermined := fun order horder => h.referring horder
      mistaken := by
        intro hlen
        refine ⟨_, (List.reverse_perm _).trans hperm, fun hmem => ?_⟩
        refine reverse_ne_self (hperm.nodup_iff.mpr hkey.referred) ?_ ((hiff _).mp hmem).symm
        rwa [hperm.length_eq, ← hkey.length_eq]
      anyOrder := by
        intro order horder
        have hkey' := hkey.referring horder
        have hfanned : FansOut table (key.referring order) _ := hkey'.fansOut_fanned
        exact ⟨_, hfanned.referring horder.symm, hkey'.besideFirst_fanned⟩ }

/-! ## A key that is shown with its pairs exchanged -/

/-- A foreign key of two columns. -/
def employeeKey : ForeignKey :=
  ⟨"revenue_emp_fk", ["emp_id", "emp_region"], "employees", ["emp_id", "region"]⟩

/-- Its rows among others, with those of its first column in the other order. -/
def shuffledRows : Rows where
  columns := ["key", "emp_id", "emp_region", "boss_id"].map fun name =>
    ⟨"revenue", name, "text", true, none⟩
  primaryKeys := [⟨"revenue", "key"⟩]
  foreignKeys :=
    [⟨"revenue", "revenue_boss_fk", "boss_id", "employees", "emp_id"⟩,
      employeeKey.row "revenue" "emp_id" "region", employeeKey.row "revenue" "emp_id" "emp_id",
      ⟨"projects", "revenue_emp_fk", "lead_id", "employees", "emp_id"⟩,
      employeeKey.row "revenue" "emp_region" "emp_id",
      employeeKey.row "revenue" "emp_region" "region"]
  indexes := []

lemma wellFormed_employeeKey : employeeKey.WellFormed := by
  constructor <;> decide

lemma fansOut_shuffledRows :
    FansOut "revenue" employeeKey (shuffledRows.about "revenue" employeeKey.name) := by
  constructor <;> decide

theorem pairing_of_fansOut_shuffledRows :
    "revenue" ∈ shuffledRows.names ∧ employeeKey.WellFormed ∧
      FansOut "revenue" employeeKey (shuffledRows.about "revenue" employeeKey.name) ∧
      ∃ t ∈ assemble shuffledRows,
        Pairing "revenue" employeeKey (shuffledRows.about "revenue" employeeKey.name) t := by
  have htable : "revenue" ∈ shuffledRows.names := by decide
  exact ⟨htable, wellFormed_employeeKey, fansOut_shuffledRows,
    pairing_of_fansOut htable wellFormed_employeeKey fansOut_shuffledRows⟩

/-- The key is shown with its first column beside the second referred one. -/
theorem columns_not_paired :
    ¬ ∀ (rows : Rows) (table : String) (key : ForeignKey), table ∈ rows.names →
      key.WellFormed → FansOut table key (rows.about table key.name) →
        ∃ t ∈ assemble rows, t.name = table ∧ key ∈ t.foreignKeys := by
  intro h
  obtain ⟨t, ht, hname, hmem⟩ :=
    h shuffledRows "revenue" employeeKey (by decide) wellFormed_employeeKey fansOut_shuffledRows
  obtain ⟨-, hmade⟩ := mem_assemble.mp ht
  rw [hmade, hname] at hmem
  have hother : employeeKey ∉ foreignKeysOf (shuffledRows.of "revenue").foreignKeys := by decide
  exact hother hmem

end RevenueDesk.Catalog
