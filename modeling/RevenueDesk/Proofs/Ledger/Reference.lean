/-
# What a list of groups is

Which groups there are, what they hold and in which order they stand can be told from the rows
alone (`IsGrouping`): no tables, no keys in order of arrival, no sorting.  There is only one
list like this, and it is the one that the ledger makes (`isGrouping_iff`).  This holds of
doubles as they are: a group has the sum of its own rows, in their order, bit for bit.

A field names the value of a row (`fieldGroups`), or lists several of them (`valueGroups`).
-/
import Mathlib.Algebra.BigOperators.Ring.List
import RevenueDesk.Proofs.Ledger.Belonging
import RevenueDesk.Proofs.Ledger.Grouping

namespace RevenueDesk.Ledger

section Reference

variable {α : Type} [Amount α]

/-- The groups of rows that belong to keys, in ranking order. -/
structure IsGrouping (belongs : Row α → String → Prop) [DecidableRel belongs]
    (rows : List (Row α)) (groups : List (Group α)) : Prop where
  /-- No key has two groups. -/
  distinct : (groups.map Group.key).Nodup
  /-- The keys that have one are those that rows belong to. -/
  keys : ∀ key, key ∈ groups.map Group.key ↔ ∃ row ∈ rows, belongs row key
  /-- The revenue is the sum of the rows that belong to the key, from the first to the last. -/
  revenue : ∀ g ∈ groups, g.revenue =
    Amount.total ((rows.filter fun row => belongs row g.key).map Row.amount)
  /-- The count is their number. -/
  count : ∀ g ∈ groups, g.count = rows.countP fun row => belongs row g.key
  /-- Larger revenue stands first, and an earlier key where the revenue is the same. -/
  ordered : groups.Pairwise Group.Before

namespace IsGrouping

variable {belongs : Row α → String → Prop} [DecidableRel belongs] {rows : List (Row α)}
  {groups groups' : List (Group α)}

/-- There is no group without rows. -/
lemma count_pos (h : IsGrouping belongs rows groups) {g : Group α} (hg : g ∈ groups) :
    0 < g.count := by
  obtain ⟨row, hrow, hbelongs⟩ := (h.keys g.key).mp (List.mem_map_of_mem hg)
  rw [h.count g hg]
  exact List.countP_pos_iff.mpr ⟨row, hrow, by simpa using hbelongs⟩

lemma subset (h : IsGrouping belongs rows groups) (h' : IsGrouping belongs rows groups') :
    groups ⊆ groups' := by
  intro g hg
  have hkey := (h'.keys g.key).mpr ((h.keys g.key).mp (List.mem_map_of_mem hg))
  obtain ⟨g', hg', hsame⟩ := List.mem_map.mp hkey
  have hrevenue : g'.revenue = g.revenue := by
    rw [h'.revenue g' hg', h.revenue g hg, hsame]
  have hcount : g'.count = g.count := by
    rw [h'.count g' hg', h.count g hg, hsame]
  cases g
  cases g'
  simp_all

variable [Amount.Ranks α]

/-- The rows and their keys leave only one list. -/
theorem unique (h : IsGrouping belongs rows groups) (h' : IsGrouping belongs rows groups') :
    groups = groups' := by
  refine Group.eq_of_perm_of_pairwise ?_ h.ordered h'.ordered
  rw [List.perm_ext_iff_of_nodup h.distinct.of_map h'.distinct.of_map]
  exact fun g => ⟨fun hg => h.subset h' hg, fun hg => h'.subset h hg⟩

end IsGrouping

/-! ## The groups of the ledger -/

variable [Amount.Ranks α] {belongs : Row α → String → Prop} [DecidableRel belongs]
  {keys keys' : Row α → List String}

lemma isGrouping_groupByKeys (hkeys : ∀ row, (keys row).Nodup)
    (hbelongs : ∀ row key, belongs row key ↔ key ∈ keys row) (rows : List (Row α)) :
    IsGrouping belongs rows (groupByKeys rows keys) where
  distinct := nodup_keys_groupByKeys rows keys
  keys key := by
    simp only [hbelongs]
    exact mem_keys_groupByKeys
  revenue g hg := by
    rw [(groupByKeys_spec hkeys hg).1]
    simp only [hbelongs]
  count g hg := by
    rw [(groupByKeys_spec hkeys hg).2]
    simp only [hbelongs]
  ordered := by
    have hperm := (groupByKeys_perm rows keys).map Group.key
    rw [groupByKeys_eq]
    exact Group.pairwise_ranked (hperm.nodup_iff.mp (nodup_keys_groupByKeys rows keys))

/-- The groups of the ledger are what the rows and their keys say. -/
theorem isGrouping_iff (hkeys : ∀ row, (keys row).Nodup)
    (hbelongs : ∀ row key, belongs row key ↔ key ∈ keys row) {rows : List (Row α)}
    {groups : List (Group α)} :
    groups = groupByKeys rows keys ↔ IsGrouping belongs rows groups := by
  have hgroups := isGrouping_groupByKeys hkeys hbelongs rows
  constructor
  · rintro rfl
    exact hgroups
  · exact fun h => h.unique hgroups

/-- The groups that the entries of a table come to. -/
def tableGroups (table : List (String × α × ℕ)) : List (Group α) :=
  ranked (table.map fun e => ⟨e.1, e.2.1, e.2.2⟩)

/-- In which order the entries come out of the table does not show. -/
lemma tableGroups_eq {rows : List (Row α)} {table : List (String × α × ℕ)}
    (h : table.Perm (tally rows keys)) : tableGroups table = groupByKeys rows keys := by
  refine rankBy_eq_of_perm (h.map _) ?_
  rw [List.map_map, (h.map _).nodup_iff, tally_eq_collect]
  exact Keyed.nodup_keys_collect _

omit [Amount.Ranks α] in
lemma groupByKeys_congr {rows : List (Row α)} (h : ∀ row ∈ rows, keys row = keys' row) :
    groupByKeys rows keys = groupByKeys rows keys' := by
  have hentries : entries rows keys = entries rows keys' :=
    List.flatMap_congr fun row hrow => by rw [h row hrow]
  rw [groupByKeys_eq, groupByKeys_eq, hentries]

omit [Amount.Ranks α] in
lemma length_entries (rows : List (Row α)) (keys : Row α → List String) :
    (entries rows keys).length = (rows.map fun row => (keys row).length).sum := by
  simp [entries, List.length_flatMap]

end Reference

/-! ## Fields with one value -/

/-- What the groups of rows under a field are, with doubles as they are. -/
structure FieldGroups (rows : List (Row Binary64)) (field : Row Binary64 → Option String) :
    Prop where
  /-- A row has one key. -/
  key : ∀ row, ∃! key, BelongsTo (Names (field row)) key
  /-- It is `Unassigned` for want of another one only if the field is missing or blank. -/
  nameless : ∀ row, (∀ value, ¬ Names (field row) value) ↔
    ∀ text, field row = some text → ∀ c ∈ text.toList, Text.isBlank c = true
  /-- The groups are what the rows and their keys say, and nothing else is. -/
  reference : ∀ groups, groups = groupBy rows field ↔
    IsGrouping (fun row key => BelongsTo (Names (field row)) key) rows groups
  /-- They are the same however the entries come out of the table of keys. -/
  table : ∀ table, table.Perm (tally rows fun row => [keyOf (field row)]) →
    tableGroups table = groupBy rows field
  /-- They have no other order in which each stands before the next. -/
  order : ∀ groups, groups.Perm (groupBy rows field) → groups.Pairwise Group.Before →
    groups = groupBy rows field
  occupied : ∀ g ∈ groupBy rows field, 0 < g.count
  counted : countOf (groupBy rows field) = rows.length

/-- Rows are grouped under a field by its value. -/
theorem fieldGroups (rows : List (Row Binary64)) (field : Row Binary64 → Option String) :
    FieldGroups rows field := by
  have hiff : ∀ groups, groups = groupBy rows field ↔
      IsGrouping (fun row key => BelongsTo (Names (field row)) key) rows groups := by
    intro groups
    refine isGrouping_iff (fun row => List.nodup_singleton _) fun row key => ?_
    rw [belongsTo_names_iff, List.mem_singleton, eq_comm]
  have hgroups := (hiff _).mp rfl
  exact
    { key := fun row => ⟨keyOf (field row), belongsTo_names_iff.mpr rfl,
        fun key hkey => (belongsTo_names_iff.mp hkey).symm⟩
      nameless := fun row => not_names_iff
      reference := hiff
      table := fun _ htable => tableGroups_eq htable
      order := fun _ hperm hordered =>
        Group.eq_of_perm_of_pairwise hperm hordered hgroups.ordered
      occupied := fun _ hg => hgroups.count_pos hg
      counted := (countOf_eq_sum _).trans (sum_count_groupBy rows field) }

/-! ## Fields with several values -/

section Values

variable {K : Type} [Field K] [LinearOrder K]

/-- Every row counts with its whole revenue for each key that it has. -/
lemma totalOf_groupByKeys (rows : List (Row K)) (keys : Row K → List String) :
    totalOf (groupByKeys rows keys) = (rows.map fun row => row.amount * (keys row).length).sum := by
  rw [totalOf_eq, sum_revenue_groupByKeys]
  induction rows with
  | nil => rfl
  | cons row rows ih =>
    have hrow : (((keys row).map fun key => (key, row.amount)).map Prod.snd).sum =
        row.amount * (keys row).length := by
      simp [Function.comp_def, List.map_const', mul_comm]
    rw [entries, List.flatMap_cons, List.map_append, List.sum_append, ← entries, ih, hrow,
      List.map_cons, List.sum_cons]

/-- What the groups of rows under a field with several values are: with doubles as they are, and
their revenue together with the figures read as exact numbers. -/
structure ValueGroups (value : Binary64 → K) (rows : List (Row Binary64))
    (field : Row Binary64 → Option String) : Prop where
  /-- The groups are what the rows and their values say, and nothing else is. -/
  reference : ∀ groups, groups = groupByEach rows field ↔
    IsGrouping (fun row key => BelongsTo (Lists (field row)) key) rows groups
  /-- They are the same however the entries come out of the table of keys. -/
  table : ∀ table, table.Perm (tally rows fun row => keysOf (field row)) →
    tableGroups table = groupByEach rows field
  /-- A row counts once for each different value, and once if there is none. -/
  counted : countOf (groupByEach rows field) =
    (rows.map fun row => max 1 (valueCount (field row))).sum
  /-- It does so with its whole revenue. -/
  revenue : ∀ exactField : Row K → Option String,
    totalOf (groupByEach (rows.map (Row.reading value)) exactField) =
      (rows.map fun row => row.worth value *
        ((max 1 (valueCount (exactField (row.reading value))) : ℕ) : K)).sum
  /-- Where no comma stands the groups are those of a field with one value. -/
  single : (∀ row ∈ rows, ∀ text, field row = some text → ',' ∉ text.toList) →
    groupByEach rows field = groupBy rows field

/-- Rows are grouped under a field with several values by each of them. -/
theorem valueGroups (value : Binary64 → K) (rows : List (Row Binary64))
    (field : Row Binary64 → Option String) : ValueGroups value rows field where
  reference groups := by
    refine isGrouping_iff (fun row => nodup_keysOf) fun row key => ?_
    exact belongsTo_lists_iff
  table _ htable := tableGroups_eq htable
  counted := by
    rw [countOf_eq_sum, groupByEach, sum_count_groupByKeys, length_entries]
    simp only [length_keysOf]
  revenue exactField := by
    rw [groupByEach, totalOf_groupByKeys, List.map_map]
    simp only [Function.comp_def, length_keysOf, Row.amount_reading]
  single h := by
    refine groupByKeys_congr fun row hrow => ?_
    exact keysOf_of_no_comma (h row hrow)

end Values

end RevenueDesk.Ledger
