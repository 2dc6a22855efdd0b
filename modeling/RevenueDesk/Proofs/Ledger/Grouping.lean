/-
# Groups and their rows

A row counts once for each of its keys: it *enters* its amount under the key.  The groups of
a list of rows are these entries collected under their keys and ranked, so there is one
group for every key that is entered, with the total and the number of its entries
(`groups_spec`).  Read exactly, nothing is lost on the way:

* `sum_revenue_groupBy`, `sum_count_groupBy`: the groups of a field with one value add up to
  the rows;
* `sum_revenue_topWithOthers`, `sum_count_topWithOthers`: so they do when the end of the
  ranking is merged into one group.
-/
import Mathlib.Algebra.BigOperators.Group.List.Basic
import Mathlib.Data.List.Perm.Basic
import RevenueDesk.Proofs.Ledger.Collecting
import RevenueDesk.Proofs.Ledger.Ranking

namespace RevenueDesk.Ledger

variable {α : Type} [Amount α] {K : Type} [Field K] [LinearOrder K]

/-! ## Entries -/

/-- The entries of rows under the keys that each row has. -/
def entries (rows : List (Row α)) (keys : Row α → List String) : List (String × α) :=
  rows.flatMap fun row => (keys row).map fun key => (key, row.amount)

/-- What an entry leaves under its key, with the number of entries. -/
def enter (entry : String × α) (held : Option (α × ℕ)) : α × ℕ :=
  ((held.getD (Amount.zero, 0)).1 + entry.2, (held.getD (Amount.zero, 0)).2 + 1)

/-- The tally of rows is what their entries are collected to. -/
lemma tally_eq_collect (rows : List (Row α)) (keys : Row α → List String) :
    tally rows keys = Keyed.collect Prod.fst enter (entries rows keys) := by
  unfold tally Keyed.collect entries
  rw [List.foldl_flatMap]
  congr 1
  funext t row
  rw [List.foldl_map]
  rfl

/-- Entries under one key leave their total, in the order in which they come, and their number. -/
lemma getD_foldl_enter (es : List (String × α)) :
    (es.foldl (fun held e => some (enter e held)) none).getD (Amount.zero, 0) =
      (Amount.total (es.map Prod.snd), es.length) := by
  induction es using List.reverseRecOn with
  | nil => rfl
  | append_singleton es e ih =>
    rw [List.foldl_append, List.foldl_cons, List.foldl_nil, Option.getD_some, enter, ih,
      List.map_append, Amount.total, Amount.total, List.foldl_append, List.length_append]
    rfl

/-- If no row has a key twice, the entries under a key are those of the rows that have it. -/
lemma map_filter_entries {rows : List (Row α)} {keys : Row α → List String}
    (hkeys : ∀ row, (keys row).Nodup) (key : String) :
    ((entries rows keys).filter fun e => e.1 = key).map Prod.snd =
      (rows.filter fun row => key ∈ keys row).map Row.amount := by
  induction rows with
  | nil => rfl
  | cons row rows ih =>
    have hrow : (((keys row).map fun k => (k, row.amount)).filter fun e => e.1 = key).map
        Prod.snd = if key ∈ keys row then [row.amount] else [] := by
      have hcount := (hkeys row).count (a := key)
      rw [List.filter_map, List.map_map]
      simp only [Function.comp_def]
      rw [List.filter_eq, hcount]
      split <;> rfl
    rw [entries, List.flatMap_cons, List.filter_append, List.map_append, ← entries, ih, hrow,
      List.filter_cons]
    split <;> simp_all

/-- An entry adds its amount to the revenue, and one to the number. -/
lemma addsShare_revenue :
    Keyed.AddsShare (enter : String × K → Option (K × ℕ) → K × ℕ) Prod.fst Prod.snd := by
  intro entry held
  cases held with
  | none => simp [enter, Keyed.measured]
  | some v => rfl

lemma addsShare_count :
    Keyed.AddsShare (enter : String × α → Option (α × ℕ) → α × ℕ) Prod.snd fun _ => 1 := by
  intro entry held
  cases held with
  | none => rfl
  | some v => rfl

/-! ## Groups -/

section Groups

variable {rows : List (Row α)} {keys : Row α → List String}

/-- The groups are the collected entries, ranked. -/
lemma groupByKeys_eq (rows : List (Row α)) (keys : Row α → List String) :
    groupByKeys rows keys = ranked
      ((Keyed.collect Prod.fst enter (entries rows keys)).map fun e => ⟨e.1, e.2.1, e.2.2⟩) := by
  rw [groupByKeys, tally_eq_collect]

lemma groupByKeys_perm (rows : List (Row α)) (keys : Row α → List String) :
    (groupByKeys rows keys).Perm
      ((Keyed.collect Prod.fst enter (entries rows keys)).map fun e => ⟨e.1, e.2.1, e.2.2⟩) := by
  rw [groupByKeys_eq]
  exact rankBy_perm _ _

/-- No two groups have the same key. -/
theorem nodup_keys_groupByKeys (rows : List (Row α)) (keys : Row α → List String) :
    ((groupByKeys rows keys).map Group.key).Nodup := by
  rw [((groupByKeys_perm rows keys).map Group.key).nodup_iff, List.map_map]
  exact Keyed.nodup_keys_collect _

/-- The keys of the groups are those that are entered. -/
theorem mem_keys_groupByKeys {key : String} :
    key ∈ (groupByKeys rows keys).map Group.key ↔ ∃ row ∈ rows, key ∈ keys row := by
  rw [((groupByKeys_perm rows keys).map Group.key).mem_iff, List.map_map]
  refine Keyed.mem_keys_collect.trans ?_
  constructor
  · rintro ⟨entry, hentry, rfl⟩
    obtain ⟨row, hrow, hkey⟩ := List.mem_flatMap.mp hentry
    obtain ⟨key, hkey, rfl⟩ := List.mem_map.mp hkey
    exact ⟨row, hrow, by simpa using hkey⟩
  · rintro ⟨row, hrow, hkey⟩
    exact ⟨(key, row.amount), List.mem_flatMap.mpr ⟨row, hrow, List.mem_map.mpr ⟨key, hkey, rfl⟩⟩,
      rfl⟩

/-- A group has the total and the number of the entries under its key. -/
theorem groups_spec {g : Group α} (hg : g ∈ groupByKeys rows keys) :
    g.revenue = Amount.total (((entries rows keys).filter fun e => e.1 = g.key).map Prod.snd) ∧
      g.count = ((entries rows keys).filter fun e => e.1 = g.key).length := by
  rw [(groupByKeys_perm rows keys).mem_iff] at hg
  obtain ⟨⟨key, held⟩, hmem, rfl⟩ := List.mem_map.mp hg
  have hfind := (Keyed.mem_iff_find?_eq_some (Keyed.nodup_keys_collect _)).mp hmem
  rw [Keyed.find?_collect] at hfind
  have hheld := getD_foldl_enter ((entries rows keys).filter fun e => e.1 = key)
  rw [hfind] at hheld
  exact ⟨congrArg Prod.fst hheld, congrArg Prod.snd hheld⟩

/-- If no row has a key twice, a group has the total and the number of the rows that have its
key. -/
theorem groupByKeys_spec (hkeys : ∀ row, (keys row).Nodup) {g : Group α}
    (hg : g ∈ groupByKeys rows keys) :
    g.revenue = Amount.total ((rows.filter fun row => g.key ∈ keys row).map Row.amount) ∧
      g.count = rows.countP fun row => g.key ∈ keys row := by
  obtain ⟨hrevenue, hcount⟩ := groups_spec hg
  have hentries : ((entries rows keys).filter fun e => e.1 = g.key).map Prod.snd =
      (rows.filter fun row => g.key ∈ keys row).map Row.amount := map_filter_entries hkeys g.key
  rw [← List.length_map Prod.snd] at hcount
  rw [hentries] at hrevenue hcount
  exact ⟨hrevenue, by rw [hcount, List.length_map, List.countP_eq_length_filter]⟩

lemma sum_count_groupByKeys (rows : List (Row α)) (keys : Row α → List String) :
    ((groupByKeys rows keys).map Group.count).sum = (entries rows keys).length := by
  rw [((groupByKeys_perm rows keys).map Group.count).sum_eq, List.map_map]
  exact (Keyed.sum_measure_collect addsShare_count _).trans (by simp)

end Groups

variable {rows : List (Row K)} {keys : Row K → List String} {field : Row K → Option String}

/-- The groups come with descending revenue. -/
theorem descending_groupByKeys (rows : List (Row K)) (keys : Row K → List String) :
    ((groupByKeys rows keys).map Group.revenue).Pairwise (· ≥ ·) := by
  rw [List.pairwise_map]
  refine (pairwise_rankBy _ _).imp fun {a b} hab => ?_
  rcases hab with hlt | ⟨heq, -⟩
  · exact le_of_lt hlt
  · exact ge_of_eq heq

omit [Field K] in
/-- No group has more revenue than the first one of a descending list. -/
lemma revenue_le_of_head? {groups : List (Group K)} {leader g : Group K}
    (hdesc : (groups.map Group.revenue).Pairwise (· ≥ ·)) (hleader : groups.head? = some leader)
    (hg : g ∈ groups) : g.revenue ≤ leader.revenue := by
  obtain ⟨rest, rfl⟩ := List.head?_eq_some_iff.mp hleader
  rw [List.map_cons, List.pairwise_cons] at hdesc
  rcases List.mem_cons.mp hg with rfl | hg
  · exact le_rfl
  · exact hdesc.1 _ (List.mem_map_of_mem hg)

lemma sum_revenue_groupByKeys (rows : List (Row K)) (keys : Row K → List String) :
    ((groupByKeys rows keys).map Group.revenue).sum = ((entries rows keys).map Prod.snd).sum := by
  rw [((groupByKeys_perm rows keys).map Group.revenue).sum_eq, List.map_map]
  exact Keyed.sum_measure_collect addsShare_revenue _

/-! ## A field with one value -/

lemma entries_single (rows : List (Row α)) (field : Row α → Option String) :
    entries rows (fun row => [keyOf (field row)]) =
      rows.map fun row => (keyOf (field row), row.amount) := by
  induction rows with
  | nil => rfl
  | cons row rows ih => exact congrArg (_ :: ·) ih

/-- The keys of the groups are those of the rows. -/
theorem mem_keys_groupBy {rows : List (Row α)} {field : Row α → Option String} {key : String} :
    key ∈ (groupBy rows field).map Group.key ↔ ∃ row ∈ rows, keyOf (field row) = key := by
  refine mem_keys_groupByKeys.trans ?_
  simp only [List.mem_singleton, eq_comm]

lemma groupBy_eq_nil_iff {rows : List (Row α)} {field : Row α → Option String} :
    groupBy rows field = [] ↔ rows = [] := by
  rw [← List.map_eq_nil_iff (f := Group.key)]
  simp only [List.eq_nil_iff_forall_not_mem, mem_keys_groupBy]
  constructor
  · intro hkeys row hrow
    exact hkeys _ ⟨row, hrow, rfl⟩
  · rintro hrows key ⟨row, hrow, -⟩
    exact hrows row hrow

/-- A group has the total and the number of the rows with its key. -/
theorem groupBy_spec {rows : List (Row α)} {field : Row α → Option String} {g : Group α}
    (hg : g ∈ groupBy rows field) :
    g.revenue = Amount.total
        ((rows.filter fun row => keyOf (field row) = g.key).map Row.amount) ∧
      g.count = rows.countP fun row => keyOf (field row) = g.key := by
  have hspec := groupByKeys_spec (fun row => List.nodup_singleton (keyOf (field row))) hg
  simpa only [List.mem_singleton, eq_comm] using hspec

lemma revenue_of_mem_groupBy {g : Group K} (hg : g ∈ groupBy rows field) :
    g.revenue = ((rows.filter fun row => keyOf (field row) = g.key).map Row.amount).sum := by
  rw [(groupBy_spec hg).1, Amount.total_eq_sum]

/-- The groups of a field add up to the revenue of the rows. -/
theorem sum_revenue_groupBy (rows : List (Row K)) (field : Row K → Option String) :
    ((groupBy rows field).map Group.revenue).sum = (rows.map Row.amount).sum := by
  rw [groupBy, sum_revenue_groupByKeys, entries_single, List.map_map]
  rfl

/-- They count every row once. -/
theorem sum_count_groupBy (rows : List (Row α)) (field : Row α → Option String) :
    ((groupBy rows field).map Group.count).sum = rows.length := by
  rw [groupBy, sum_count_groupByKeys, entries_single, List.length_map]

/-! ## The end of the ranking in one group -/

lemma length_topWithOthers (n : ℕ) (groups : List (Group α)) :
    (topWithOthers n groups).length = if groups.length ≤ n then groups.length else n + 1 := by
  unfold topWithOthers
  split
  · rfl
  · rename_i hn
    rw [List.length_append, List.length_take, List.length_singleton, min_eq_left (le_of_not_ge hn)]

omit [Amount α] in
lemma countOf_eq_sum (groups : List (Group α)) :
    countOf groups = (groups.map Group.count).sum := by
  rw [countOf, List.sum_eq_foldl, List.foldl_map]

/-- Merging the end of a ranking loses nothing that a merged group keeps. -/
lemma sum_map_topWithOthers {M : Type} [AddCommMonoid M] {figure : Group α → M}
    (hmerged : ∀ gs, figure (merged gs) = (gs.map figure).sum) (n : ℕ)
    (groups : List (Group α)) :
    ((topWithOthers n groups).map figure).sum = (groups.map figure).sum := by
  unfold topWithOthers
  split
  · rfl
  · rw [List.map_append, List.sum_append, List.map_singleton, List.sum_singleton, hmerged,
      ← List.sum_append, ← List.map_append, List.take_append_drop]

/-- It loses no revenue. -/
theorem sum_revenue_topWithOthers (n : ℕ) (groups : List (Group K)) :
    ((topWithOthers n groups).map Group.revenue).sum = (groups.map Group.revenue).sum :=
  sum_map_topWithOthers totalOf_eq n groups

lemma totalOf_topWithOthers (n : ℕ) (groups : List (Group K)) :
    totalOf (topWithOthers n groups) = totalOf groups := by
  rw [totalOf_eq, totalOf_eq, sum_revenue_topWithOthers]

/-- It loses no row. -/
theorem sum_count_topWithOthers (n : ℕ) (groups : List (Group α)) :
    ((topWithOthers n groups).map Group.count).sum = (groups.map Group.count).sum :=
  sum_map_topWithOthers countOf_eq_sum n groups

end RevenueDesk.Ledger
