/-
# The schema, table by table

The four lists of catalog rows come in any order, with the rows of all tables among each other.
What is told of a table is made of its own rows alone (`tableOf`), and the schema is the list of
its tables in the order of their names (`assemble_eq`).  A table is there if it has a column.

A foreign key is found by its name while its rows come in, so its rows may stand anywhere among
those of the table.  It still is what its own rows make of it (`merges_of_mem_foreignKeysOf`).  An
index is what its row says of it.
-/
import RevenueDesk.Catalog.Schema
import RevenueDesk.Proofs.Catalog.IndexRows
import RevenueDesk.Proofs.Ledger.Collecting
import RevenueDesk.Proofs.Ledger.Sorting

namespace RevenueDesk.Catalog

/-! ## Foreign keys -/

lemma addNew_eraseDups (x : String) (xs : List String) :
    addNew x xs.eraseDups = (xs ++ [x]).eraseDups := by
  rw [Keyed.eraseDups_concat, addNew]
  simp

/-- What a row leaves under the name of its foreign key. -/
def enterForeignKey (row : ForeignKeyRow) : Option ForeignKey → ForeignKey
  | none => ⟨row.constraint, [row.column], row.referredTable, [row.referredColumn]⟩
  | some key =>
    { key with
      constrainedColumns := addNew row.column key.constrainedColumns
      referredColumns := addNew row.referredColumn key.referredColumns }

/-- A foreign key under its name. -/
def ForeignKey.named (key : ForeignKey) : String × ForeignKey := (key.name, key)

lemma map_named_addForeignKey (row : ForeignKeyRow) (keys : List ForeignKey) :
    (addForeignKey row keys).map ForeignKey.named =
      Keyed.update row.constraint (enterForeignKey row) (keys.map ForeignKey.named) := by
  induction keys with
  | nil => rfl
  | cons key keys ih =>
    by_cases hkey : key.name = row.constraint
    · simp [addForeignKey, Keyed.update, ForeignKey.named, enterForeignKey, hkey]
    · simpa [addForeignKey, Keyed.update, ForeignKey.named, hkey] using ih

/-- The foreign keys that rows make, one row after the other. -/
def foreignKeysOf (rows : List ForeignKeyRow) : List ForeignKey :=
  rows.foldl (fun keys row => addForeignKey row keys) []

/-- They are the rows collected under the names of their constraints. -/
lemma map_named_foreignKeysOf (rows : List ForeignKeyRow) :
    (foreignKeysOf rows).map ForeignKey.named =
      Keyed.collect ForeignKeyRow.constraint enterForeignKey rows := by
  unfold foreignKeysOf Keyed.collect
  refine (List.foldl_hom (List.map ForeignKey.named) ?_).symm
  intro keys row
  exact (map_named_addForeignKey row keys).symm

/-- The names are those of the constraints, in the order in which they first appear. -/
lemma map_name_foreignKeysOf (rows : List ForeignKeyRow) :
    (foreignKeysOf rows).map ForeignKey.name =
      (rows.map ForeignKeyRow.constraint).eraseDups := by
  rw [← Keyed.keys_collect _ enterForeignKey, ← map_named_foreignKeysOf, List.map_map]
  rfl

lemma nodup_name_foreignKeysOf (rows : List ForeignKeyRow) :
    ((foreignKeysOf rows).map ForeignKey.name).Nodup := by
  rw [map_name_foreignKeysOf, ← Keyed.keys_collect _ enterForeignKey]
  exact Keyed.nodup_keys_collect rows

/-- The rows of one constraint leave one foreign key, with the columns of all of them and the
table of the first. -/
lemma foldl_enterForeignKey (row : ForeignKeyRow) (rows : List ForeignKeyRow) :
    (row :: rows).foldl (fun held r => some (enterForeignKey r held)) none =
      some ⟨row.constraint, ((row :: rows).map ForeignKeyRow.column).eraseDups,
        row.referredTable, ((row :: rows).map ForeignKeyRow.referredColumn).eraseDups⟩ := by
  induction rows using List.reverseRecOn with
  | nil => simp [enterForeignKey, List.eraseDups_cons]
  | append_singleton rows last ih =>
    rw [← List.cons_append, List.foldl_append, ih, List.map_append, List.map_append]
    simp only [List.foldl_cons, List.foldl_nil, enterForeignKey, addNew_eraseDups,
      List.map_singleton]

/-- A foreign key is what the rows of its constraint say. -/
structure Merges (rows : List ForeignKeyRow) (key : ForeignKey) : Prop where
  constrained : key.constrainedColumns = (rows.map ForeignKeyRow.column).eraseDups
  referred : key.referredColumns = (rows.map ForeignKeyRow.referredColumn).eraseDups
  target : rows.head?.map ForeignKeyRow.referredTable = some key.referredTable

/-- Every foreign key is made of the rows of its own constraint. -/
theorem merges_of_mem_foreignKeysOf {rows : List ForeignKeyRow} {key : ForeignKey}
    (h : key ∈ foreignKeysOf rows) :
    Merges (rows.filter fun row => row.constraint = key.name) key := by
  have hmem : (key.name, key) ∈ Keyed.collect ForeignKeyRow.constraint enterForeignKey rows := by
    rw [← map_named_foreignKeysOf]
    exact List.mem_map_of_mem h
  have hfind := (Keyed.mem_iff_find?_eq_some (Keyed.nodup_keys_collect rows)).mp hmem
  rw [Keyed.find?_collect] at hfind
  cases hown : rows.filter fun row => row.constraint = key.name with
  | nil => simp [hown] at hfind
  | cons row own =>
    rw [hown, foldl_enterForeignKey] at hfind
    obtain rfl := Option.some.inj hfind
    exact ⟨rfl, rfl, rfl⟩

/-! ## The rows of a table -/

/-- What a row leaves under its table. -/
def enterColumn (row : ColumnRow) (held : Option Table) : Table :=
  (held.getD (.empty row.table)).addColumn row.column

namespace Rows

/-- The rows of one table. -/
def of (rows : Rows) (table : String) : Rows where
  columns := rows.columns.filter fun row => row.table = table
  primaryKeys := rows.primaryKeys.filter fun row => row.table = table
  foreignKeys := rows.foreignKeys.filter fun row => row.table = table
  indexes := rows.indexes.filter fun row => row.table = table

/-- The names of the tables that have a column, in the order in which they first appear. -/
def names (rows : Rows) : List String := (rows.columns.map ColumnRow.table).eraseDups

lemma nodup_names (rows : Rows) : rows.names.Nodup := by
  rw [names, ← Keyed.keys_collect _ enterColumn]
  exact Keyed.nodup_keys_collect rows.columns

/-- The rows without those of tables that have no column. -/
def known (rows : Rows) : Rows where
  columns := rows.columns
  primaryKeys := rows.primaryKeys.filter fun row => row.table ∈ rows.names
  foreignKeys := rows.foreignKeys.filter fun row => row.table ∈ rows.names
  indexes := rows.indexes.filter fun row => row.table ∈ rows.names

lemma of_of (rows : Rows) (table : String) : (rows.of table).of table = rows.of table := by
  simp [of]

lemma of_known {rows : Rows} {table : String} (h : table ∈ rows.names) :
    rows.known.of table = rows.of table := by
  have hfilter : ∀ {ρ : Type} (name : ρ → String) (own : List ρ),
      (own.filter fun row => name row ∈ rows.names).filter (fun row => name row = table) =
        own.filter fun row => name row = table := by
    intro ρ name own
    rw [List.filter_filter]
    refine List.filter_congr fun row _ => ?_
    by_cases hname : name row = table
    · simp [hname, h]
    · simp [hname]
  simp only [of, known, hfilter]

lemma mem_names {rows : Rows} {table : String} :
    table ∈ rows.names ↔ ∃ row ∈ rows.columns, row.table = table := by
  simp [names]

lemma mem_names_iff_of {rows : Rows} {table : String} :
    table ∈ rows.names ↔ (rows.of table).columns ≠ [] := by
  rw [mem_names, Ne, of, List.filter_eq_nil_iff]
  simp

/-- The rows of a table that has a column name that table alone. -/
lemma names_of {rows : Rows} {table : String} (h : table ∈ rows.names) :
    (rows.of table).names = [table] := by
  have hmem : ∀ name, name ∈ (rows.of table).names ↔ name = table := by
    intro name
    rw [mem_names] at h
    obtain ⟨row, hrow, rfl⟩ := h
    simp only [mem_names, of, List.mem_filter, decide_eq_true_eq]
    constructor
    · rintro ⟨row', ⟨-, htable⟩, rfl⟩
      exact htable
    · rintro rfl
      exact ⟨row, ⟨hrow, rfl⟩, rfl⟩
  have hperm : (rows.of table).names.Perm [table] := by
    rw [List.perm_ext_iff_of_nodup (nodup_names _) (List.nodup_singleton table)]
    simpa using hmem
  exact List.perm_singleton.mp hperm

end Rows

/-- The table that rows describe, whatever tables they name. -/
def tableOf (name : String) (rows : Rows) : Table where
  name := name
  columns := rows.columns.map ColumnRow.column
  primaryKeys := rows.primaryKeys.map PrimaryKeyRow.column
  foreignKeys := foreignKeysOf rows.foreignKeys
  indexes := rows.indexes.map IndexRow.toIndex

/-! ## Four passes -/

/-- The rows of a table that has a column leave it with its columns. -/
lemma foldl_enterColumn (row : ColumnRow) (rows : List ColumnRow) :
    (row :: rows).foldl (fun held r => some (enterColumn r held)) none =
      some ⟨row.table, (row :: rows).map ColumnRow.column, [], [], []⟩ := by
  induction rows using List.reverseRecOn with
  | nil => rfl
  | append_singleton rows last ih =>
    rw [← List.cons_append, List.foldl_append, ih, List.map_append]
    rfl

lemma foldl_addPrimaryKey (rows : List PrimaryKeyRow) (t : Table) :
    rows.foldl (fun t row => t.addPrimaryKey row.column) t =
      { t with primaryKeys := t.primaryKeys ++ rows.map PrimaryKeyRow.column } := by
  induction rows generalizing t with
  | nil => simp
  | cons row rows ih =>
    rw [List.foldl_cons, ih]
    simp [Table.addPrimaryKey]

lemma foldl_addReference (rows : List ForeignKeyRow) (t : Table) :
    rows.foldl (fun t row => t.addReference row) t =
      { t with
        foreignKeys := rows.foldl (fun keys row => addForeignKey row keys) t.foreignKeys } := by
  induction rows generalizing t with
  | nil => rfl
  | cons row rows ih =>
    rw [List.foldl_cons, ih]
    rfl

lemma foldl_addIndex (rows : List IndexRow) (t : Table) :
    rows.foldl (fun t row => t.addIndex row.toIndex) t =
      { t with indexes := t.indexes ++ rows.map IndexRow.toIndex } := by
  induction rows generalizing t with
  | nil => simp
  | cons row rows ih =>
    rw [List.foldl_cons, ih]
    simp [Table.addIndex]

/-- The tables with their columns, changed by the rows of the three other lists. -/
lemma tables_eq (rows : Rows) :
    tables rows =
      rows.indexes.foldl (fun ts row => Keyed.adjust row.table (·.addIndex row.toIndex) ts)
        (rows.foreignKeys.foldl (fun ts row => Keyed.adjust row.table (·.addReference row) ts)
          (rows.primaryKeys.foldl
            (fun ts row => Keyed.adjust row.table (·.addPrimaryKey row.column) ts)
            (Keyed.collect ColumnRow.table enterColumn rows.columns))) := rfl

lemma keys_tables (rows : Rows) : (tables rows).map Prod.fst = rows.names := by
  rw [tables_eq, Keyed.keys_foldl_adjust, Keyed.keys_foldl_adjust, Keyed.keys_foldl_adjust]
  exact Keyed.keys_collect _ enterColumn rows.columns

/-- The first pass gives a table its columns. -/
lemma find?_collect_enterColumn {rows : Rows} {name : String} (h : name ∈ rows.names) :
    Keyed.find? name (Keyed.collect ColumnRow.table enterColumn rows.columns) =
      some ⟨name, (rows.of name).columns.map ColumnRow.column, [], [], []⟩ := by
  obtain ⟨first, own, hown⟩ := List.exists_cons_of_ne_nil (Rows.mem_names_iff_of.mp h)
  have hfirst : first ∈ (rows.of name).columns := hown ▸ List.mem_cons_self
  obtain rfl : first.table = name := by simpa using (List.mem_filter.mp hfirst).2
  rw [Keyed.find?_collect, hown, ← foldl_enterColumn, ← hown]
  rfl

/-- The other passes add the primary key, the foreign keys and the indexes. -/
lemma find?_tables {rows : Rows} {name : String} (h : name ∈ rows.names) :
    Keyed.find? name (tables rows) = some (tableOf name (rows.of name)) := by
  rw [tables_eq, Keyed.find?_foldl_adjust, Keyed.find?_foldl_adjust, Keyed.find?_foldl_adjust,
    find?_collect_enterColumn h]
  simp only [Option.map_some, foldl_addPrimaryKey, foldl_addReference, foldl_addIndex,
    List.nil_append]
  rfl

/-- The schema holds the tables that have a column, by name, each made of its own rows. -/
theorem assemble_eq (rows : Rows) :
    assemble rows =
      (rows.names.mergeSort fun a b => a ≤ b).map fun name => tableOf name (rows.of name) := by
  have htables : tables rows = rows.names.map fun name => (name, tableOf name (rows.of name)) := by
    rw [← keys_tables]
    refine Keyed.eq_map_keys ?_ ?_
    · rw [keys_tables]
      exact rows.nodup_names
    · intro name hname
      rw [keys_tables] at hname
      exact find?_tables hname
  have hsort : (tables rows).mergeSort (fun a b => a.1 ≤ b.1) =
      (rows.names.mergeSort fun a b => a ≤ b).map fun name =>
        (name, tableOf name (rows.of name)) := by
    rw [htables]
    refine (List.map_mergeSort ?_).symm
    intro _ _ _ _
    rfl
  rw [assemble, hsort, List.map_map]
  rfl

/-! ## The schema -/

lemma map_name_assemble (rows : Rows) :
    (assemble rows).map Table.name = rows.names.mergeSort fun a b => a ≤ b := by
  rw [assemble_eq, List.map_map]
  exact List.map_id _

lemma arranges_le : Arranges fun a b : String => decide (a ≤ b) where
  trans hab hbc := by
    rw [decide_eq_true_eq] at hab hbc ⊢
    exact String.le_trans hab hbc
  total a b := by
    rw [Bool.or_eq_true, decide_eq_true_eq, decide_eq_true_eq]
    exact String.le_total a b
  antisymm hab hba := by
    rw [decide_eq_true_eq] at hab hba
    exact String.le_antisymm hab hba

/-- The names come in strictly ascending order. -/
lemma ascending_assemble (rows : Rows) :
    ((assemble rows).map Table.name).Pairwise (· < ·) := by
  have hsorted : ((assemble rows).map Table.name).Pairwise fun a b => decide (a ≤ b) = true := by
    rw [map_name_assemble]
    exact arranges_le.pairwise_mergeSort _
  have hnodup : ((assemble rows).map Table.name).Nodup := by
    rw [map_name_assemble, (List.mergeSort_perm _ _).nodup_iff]
    exact rows.nodup_names
  refine hsorted.imp₂ (fun a b hle hne => ?_) hnodup
  by_contra hlt
  exact hne (String.le_antisymm (of_decide_eq_true hle) (String.not_lt.mp hlt))

lemma mem_assemble {rows : Rows} {t : Table} :
    t ∈ assemble rows ↔ t.name ∈ rows.names ∧ t = tableOf t.name (rows.of t.name) := by
  rw [assemble_eq, List.mem_map]
  constructor
  · rintro ⟨name, hname, rfl⟩
    exact ⟨List.mem_mergeSort.mp hname, rfl⟩
  · rintro ⟨hname, ht⟩
    exact ⟨t.name, List.mem_mergeSort.mpr hname, ht.symm⟩

/-- The rows of a table that has a column make a schema of that table alone. -/
lemma assemble_of {rows : Rows} {name : String} (h : name ∈ rows.names) :
    assemble (rows.of name) = [tableOf name (rows.of name)] := by
  rw [assemble_eq, Rows.names_of h, List.mergeSort_singleton, List.map_singleton, Rows.of_of]

/-- A table does not see the rows of other tables. -/
lemma mem_assemble_congr {rows rows' : Rows} {t : Table}
    (h : rows'.of t.name = rows.of t.name) : t ∈ assemble rows' ↔ t ∈ assemble rows := by
  rw [mem_assemble, mem_assemble, Rows.mem_names_iff_of, Rows.mem_names_iff_of, h]

/-- Rows about tables that have no column leave no trace. -/
lemma assemble_known (rows : Rows) : assemble rows.known = assemble rows := by
  rw [assemble_eq, assemble_eq]
  refine List.map_congr_left fun name hname => ?_
  have hmem : name ∈ rows.names := List.mem_mergeSort.mp hname
  rw [Rows.of_known hmem]

/-- A table tells what its own rows say, and all of it:

* its columns and its primary key are the rows, in their order, and so are its indexes, each
  with the name, the columns and the uniqueness that its row tells;
* its foreign keys are the constraints, in the order in which they first appear, no name
  twice, each with the columns of its rows in the order in which they first appear. -/
structure Tells (own : Rows) (t : Table) : Prop where
  columns : t.columns = own.columns.map ColumnRow.column
  primaryKeys : t.primaryKeys = own.primaryKeys.map PrimaryKeyRow.column
  indexes : List.Forall₂ Describes own.indexes t.indexes
  keyNames : t.foreignKeys.map ForeignKey.name =
    (own.foreignKeys.map ForeignKeyRow.constraint).eraseDups
  distinctKeys : (t.foreignKeys.map ForeignKey.name).Nodup
  keys : ∀ key ∈ t.foreignKeys,
    Merges (own.foreignKeys.filter fun row => row.constraint = key.name) key

lemma tells_tableOf (name : String) (own : Rows) : Tells own (tableOf name own) where
  columns := rfl
  primaryKeys := rfl
  indexes := by
    rw [tableOf, List.forall₂_map_right_iff, List.forall₂_same]
    exact fun row _ => describes_toIndex row
  keyNames := map_name_foreignKeysOf _
  distinctKeys := nodup_name_foreignKeysOf _
  keys _ hkey := merges_of_mem_foreignKeysOf hkey

/-- A schema is made table by table, and loses nothing that belongs to one of them:

* the names of the tables strictly ascend, and are those that some column row has;
* a table is what its own rows alone make, and tells what they say;
* it stays the same whatever other rows there are;
* rows about tables that have no column leave no trace. -/
structure TableByTable (rows : Rows) : Prop where
  ascending : ((assemble rows).map Table.name).Pairwise (· < ·)
  names : ∀ name, name ∈ (assemble rows).map Table.name ↔ ∃ row ∈ rows.columns, row.table = name
  alone : ∀ t ∈ assemble rows, assemble (rows.of t.name) = [t]
  tells : ∀ t ∈ assemble rows, Tells (rows.of t.name) t
  frame : ∀ rows' t, rows'.of t.name = rows.of t.name → (t ∈ assemble rows' ↔ t ∈ assemble rows)
  noTrace : assemble rows.known = assemble rows

/-- The schema is made table by table. -/
theorem tableByTable (rows : Rows) : TableByTable rows where
  ascending := ascending_assemble rows
  names name := by
    rw [map_name_assemble, List.mem_mergeSort, Rows.mem_names]
  alone t ht := by
    obtain ⟨hname, hmade⟩ := mem_assemble.mp ht
    rw [assemble_of hname, ← hmade]
  tells t ht := by
    obtain ⟨-, hmade⟩ := mem_assemble.mp ht
    have htells := tells_tableOf t.name (rows.of t.name)
    rwa [← hmade] at htells
  frame _ _ h := mem_assemble_congr h
  noTrace := assemble_known rows

end RevenueDesk.Catalog
