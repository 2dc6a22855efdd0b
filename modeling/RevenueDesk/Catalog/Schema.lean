/-
# The schema

The tables of the database with their columns, keys and indexes, put together from four
lists of catalog rows.  Only tables that have columns are listed, by name.  A foreign key
of several columns arrives as several rows with one constraint name.
-/
import RevenueDesk.Catalog.IndexColumns
import RevenueDesk.Json.Value
import RevenueDesk.Keyed
import RevenueDesk.Text.Letter

namespace RevenueDesk.Catalog

structure Column where
  name : String
  dataType : String
  nullable : Bool
  defaultValue : Option String
deriving DecidableEq, Inhabited, Repr

structure ForeignKey where
  name : String
  constrainedColumns : List String
  referredTable : String
  referredColumns : List String
deriving DecidableEq, Inhabited, Repr

structure Index where
  name : String
  columns : List String
  unique : Bool
deriving DecidableEq, Inhabited, Repr

structure Table where
  name : String
  columns : List Column
  primaryKeys : List String
  foreignKeys : List ForeignKey
  indexes : List Index
deriving DecidableEq, Inhabited, Repr

structure ColumnRow where
  table : String
  column : Column
deriving DecidableEq, Inhabited, Repr

structure PrimaryKeyRow where
  table : String
  column : String
deriving DecidableEq, Inhabited, Repr

/-- A catalog row about a foreign key: one of its columns and one that it refers to. -/
structure ForeignKeyRow where
  table : String
  constraint : String
  column : String
  referredTable : String
  referredColumn : String
deriving DecidableEq, Inhabited, Repr

structure IndexRow where
  table : String
  index : String
  definition : String
deriving DecidableEq, Inhabited, Repr

/-- The four lists of catalog rows. -/
structure Rows where
  columns : List ColumnRow
  primaryKeys : List PrimaryKeyRow
  foreignKeys : List ForeignKeyRow
  indexes : List IndexRow
deriving Inhabited

/-- A list with an element at its end, unless it has it already. -/
def addNew (x : String) (xs : List String) : List String :=
  if xs.contains x then xs else xs ++ [x]

/-- Add a row to the foreign key of its constraint, or begin a new one. -/
def addForeignKey (row : ForeignKeyRow) : List ForeignKey → List ForeignKey
  | [] => [⟨row.constraint, [row.column], row.referredTable, [row.referredColumn]⟩]
  | key :: keys =>
    if key.name = row.constraint then
      { key with
        constrainedColumns := addNew row.column key.constrainedColumns
        referredColumns := addNew row.referredColumn key.referredColumns } :: keys
    else key :: addForeignKey row keys

/-- How the definition of a unique index begins, in capitals. -/
def uniqueStart : List Char := "CREATE UNIQUE".toList

/-- The definition is that of a unique index. -/
def isUnique (definition : String) : Bool :=
  (Text.dropStart? uniqueStart
    (Text.upper (definition.toList.dropWhile Text.isBlank))).isSome

def IndexRow.toIndex (row : IndexRow) : Index :=
  ⟨row.index, indexColumns row.definition, isUnique row.definition⟩

namespace Table

/-- The table of that name with nothing in it. -/
def empty (name : String) : Table := ⟨name, [], [], [], []⟩

def addColumn (t : Table) (c : Column) : Table := { t with columns := t.columns ++ [c] }

def addPrimaryKey (t : Table) (c : String) : Table :=
  { t with primaryKeys := t.primaryKeys ++ [c] }

def addReference (t : Table) (row : ForeignKeyRow) : Table :=
  { t with foreignKeys := addForeignKey row t.foreignKeys }

def addIndex (t : Table) (i : Index) : Table := { t with indexes := t.indexes ++ [i] }

end Table

/-- The tables by name, with all that the catalog says about them. -/
def tables (rows : Rows) : List (String × Table) :=
  let ts := rows.columns.foldl (fun ts row =>
    Keyed.update row.table (fun t => (t.getD (.empty row.table)).addColumn row.column) ts) []
  let ts := rows.primaryKeys.foldl (fun ts row =>
    Keyed.adjust row.table (·.addPrimaryKey row.column) ts) ts
  let ts := rows.foreignKeys.foldl (fun ts row =>
    Keyed.adjust row.table (·.addReference row) ts) ts
  rows.indexes.foldl (fun ts row => Keyed.adjust row.table (·.addIndex row.toIndex) ts) ts

/-- The tables in the order of their names. -/
def assemble (rows : Rows) : List Table :=
  ((tables rows).mergeSort fun a b => a.1 ≤ b.1).map Prod.snd

/-! ## As JSON -/

open Json (ofList ofStrings ofOption)

def Column.toJson (c : Column) : Json :=
  .object
    [("name", .string c.name), ("dataType", .string c.dataType), ("nullable", .bool c.nullable),
      ("defaultValue", ofOption .string c.defaultValue)]

def ForeignKey.toJson (k : ForeignKey) : Json :=
  .object
    [("name", .string k.name), ("constrainedColumns", ofStrings k.constrainedColumns),
      ("referredTable", .string k.referredTable),
      ("referredColumns", ofStrings k.referredColumns)]

def Index.toJson (i : Index) : Json :=
  .object
    [("name", .string i.name), ("columns", ofStrings i.columns), ("unique", .bool i.unique)]

def Table.toJson (t : Table) : Json :=
  .object
    [("name", .string t.name), ("columns", ofList Column.toJson t.columns),
      ("primaryKeys", ofStrings t.primaryKeys),
      ("foreignKeys", ofList ForeignKey.toJson t.foreignKeys),
      ("indexes", ofList Index.toJson t.indexes)]

def schemaToJson (ts : List Table) : Json := .object [("tables", ofList Table.toJson ts)]

end RevenueDesk.Catalog
