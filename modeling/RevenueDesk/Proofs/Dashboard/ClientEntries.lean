/-
# The entries of the client ranking

The chart shows the first ten clients, and one entry named `Others` for all clients after them.
What an entry stands for can be told by its place.  It cannot always be told by its name, since
a client may be named `Others` as well (`clientEntries`): if it is among the first ten and there
are more, the chart has two entries of this name.  No other name occurs twice.

There is nothing special about rows like these.  One more row can put any client at the head of
the ranking (`exists_row_leading`), and so the client `Others` too.
-/
import Mathlib.Algebra.BigOperators.Group.Finset.Piecewise
import Mathlib.Algebra.Order.Field.Rat
import Mathlib.Data.Finset.Order
import RevenueDesk.Dashboard.Executive
import RevenueDesk.Proofs.Ledger.Collapsing

namespace RevenueDesk

open Ledger

/-! ## The keys of a ranking that is cut -/

namespace Ledger

section Cut

variable {α : Type} [Amount α] {n : ℕ} {groups : List (Group α)}

/-- A key occurs once if it is one of the first `n`, and the key of the end of the ranking once
more. -/
lemma count_key_topWithOthers (h : (groups.map Group.key).Nodup) (key : String) :
    ((topWithOthers n groups).map Group.key).count key =
      (if key ∈ (groups.take n).map Group.key then 1 else 0) +
        if n < groups.length ∧ key = others then 1 else 0 := by
  have hfirst : ((groups.take n).map Group.key).Nodup :=
    h.sublist ((List.take_sublist n groups).map Group.key)
  unfold topWithOthers
  split
  · rename_i hn
    have hend : ¬ (n < groups.length ∧ key = others) := fun ⟨hlt, _⟩ => absurd hlt (by omega)
    rw [if_neg hend, List.take_of_length_le hn, h.count, Nat.add_zero]
  · rename_i hn
    have hend : ((merged (groups.drop n)).key == key) = true ↔
        n < groups.length ∧ key = others := by
      rw [beq_iff_eq, eq_comm (b := key)]
      exact ⟨fun heq => ⟨by omega, heq⟩, And.right⟩
    rw [List.map_append, List.count_append, hfirst.count, List.map_singleton,
      List.count_singleton]
    simp only [hend]

/-- No key occurs twice unless there is an end of the ranking and its key is taken. -/
lemma nodup_key_topWithOthers (h : (groups.map Group.key).Nodup) :
    ((topWithOthers n groups).map Group.key).Nodup ↔
      ¬ (n < groups.length ∧ others ∈ (groups.take n).map Group.key) := by
  rw [List.nodup_iff_count_le_one]
  simp only [count_key_topWithOthers h]
  constructor
  · rintro hcount ⟨hn, hmem⟩
    have hothers := hcount others
    rw [if_pos hmem, if_pos ⟨hn, rfl⟩] at hothers
    omega
  · intro hfree key
    by_cases hmem : key ∈ (groups.take n).map Group.key
    · rw [if_pos hmem, if_neg]
      rintro ⟨hn, rfl⟩
      exact hfree ⟨hn, hmem⟩
    · rw [if_neg hmem]
      split <;> omega

/-- After the first `n` comes the end of the ranking at most. -/
lemma eq_merged_of_mem_drop {g : Group α} (hg : g ∈ (topWithOthers n groups).drop n) :
    g = merged (groups.drop n) := by
  unfold topWithOthers at hg
  split at hg
  · rename_i hn
    simp [List.drop_of_length_le hn] at hg
  · rename_i hn
    have hlength : (groups.take n).length = n := List.length_take_of_le (by omega)
    rw [List.drop_append_of_le_length hlength.ge, List.drop_of_length_le hlength.le,
      List.nil_append] at hg
    exact List.mem_singleton.mp hg

end Cut

/-! ## The rows of clients -/

/-- If no key is asked for twice, those who have one of them are counted key by key. -/
lemma sum_map_countP {β : Type} (f : β → String) {keys : List String} (h : keys.Nodup)
    (xs : List β) : (keys.map fun key => xs.countP fun x => f x = key).sum =
      xs.countP fun x => f x ∈ keys := by
  induction xs with
  | nil => simp
  | cons x xs ih =>
    have hx : (keys.map fun key => if f x = key then 1 else 0).sum =
        if f x ∈ keys then 1 else 0 := by
      rw [← List.sum_toFinset _ h, Finset.sum_ite_eq]
      simp only [List.mem_toFinset]
    simp only [List.countP_cons, List.sum_map_add, decide_eq_true_eq, ih, hx]

section Rows

variable {α : Type} [Amount α] {rows : List (Row α)} {field : Row α → Option String}

/-- The end of the ranking counts the rows with none of the keys before it. -/
lemma countOf_drop_groupBy (n : ℕ) : countOf ((groupBy rows field).drop n) =
    rows.countP fun row => keyOf (field row) ∉ ((groupBy rows field).take n).map Group.key := by
  have hnodup : ((groupBy rows field).map Group.key).Nodup := nodup_keys_groupByKeys _ _
  rw [← List.take_append_drop n (groupBy rows field), List.map_append, List.nodup_append]
    at hnodup
  obtain ⟨-, hrest, hapart⟩ := hnodup
  have hcounts : ((groupBy rows field).drop n).map Group.count =
      (((groupBy rows field).drop n).map Group.key).map fun key =>
        rows.countP fun row => keyOf (field row) = key := by
    rw [List.map_map]
    exact List.map_congr_left fun g hg => (groupBy_spec (List.mem_of_mem_drop hg)).2
  rw [countOf_eq_sum, hcounts, sum_map_countP _ hrest]
  refine List.countP_congr fun row hrow => ?_
  have hkey : keyOf (field row) ∈ (groupBy rows field).map Group.key :=
    mem_keys_groupBy.mpr ⟨row, hrow, rfl⟩
  rw [← List.take_append_drop n (groupBy rows field), List.map_append, List.mem_append] at hkey
  simp only [decide_eq_true_eq]
  exact ⟨fun hin hfirst => hapart _ hfirst _ hin rfl, hkey.resolve_left⟩

end Rows

section Exact

variable {K : Type} [Field K] [LinearOrder K] {rows : List (Row K)}
  {field : Row K → Option String}

/-- A group with more revenue than all others stands first. -/
lemma head?_key_groupBy {g : Group K} (hg : g ∈ groupBy rows field)
    (hmost : ∀ g' ∈ groupBy rows field, g'.key ≠ g.key → g'.revenue < g.revenue) :
    ((groupBy rows field).map Group.key).head? = some g.key := by
  cases hhead : (groupBy rows field).head? with
  | none =>
    rw [List.head?_eq_none_iff] at hhead
    simp [hhead] at hg
  | some leader =>
    have hge : g.revenue ≤ leader.revenue :=
      revenue_le_of_head? (descending_groupByKeys _ _) hhead hg
    have hkey : leader.key = g.key := by
      by_contra hne
      exact absurd (hmost leader (List.mem_of_mem_head? hhead) hne) (not_lt.mpr hge)
    rw [List.head?_map, hhead, Option.map_some, hkey]

/-- One more row adds its amount to the revenue of its own group. -/
lemma revenue_groupBy_append {row : Row K} {g : Group K}
    (hg : g ∈ groupBy (rows ++ [row]) field) : g.revenue =
      ((rows.filter fun row => keyOf (field row) = g.key).map Row.amount).sum +
        if keyOf (field row) = g.key then row.amount else 0 := by
  rw [revenue_of_mem_groupBy hg, List.filter_append, List.map_append, List.sum_append]
  split
  · rename_i hkey
    simp [hkey]
  · rename_i hkey
    simp [hkey]

end Exact

/-- One more row puts any client at the head of the ranking. -/
theorem exists_row_leading (rows : List (Row ℚ)) (name : String) :
    ∃ row : Row ℚ, row.customer = some name ∧
      ((groupBy (rows ++ [row]) Row.customer).map Group.key).head? = some (keyOf (some name)) := by
  set worth : String → ℚ := fun key =>
    ((rows.filter fun row => keyOf row.customer = key).map Row.amount).sum with hworth
  -- more than any client is worth so far
  obtain ⟨most, hmost⟩ := (rows.map fun row => worth (keyOf row.customer)).toFinset.exists_le
  obtain ⟨top, htop⟩ := exists_gt most
  set row : Row ℚ :=
    ⟨some name, none, none, none, none, some (top - worth (keyOf (some name)))⟩
  refine ⟨row, rfl, ?_⟩
  obtain ⟨g, hg, hkey⟩ := List.mem_map.mp (mem_keys_groupBy.mpr
    ⟨row, List.mem_append_right rows List.mem_cons_self, rfl⟩)
  have hrevenue : g.revenue = top := by
    rw [revenue_groupBy_append hg, hkey, if_pos rfl]
    show worth (keyOf (some name)) + (top - worth (keyOf (some name))) = top
    exact add_sub_cancel _ _
  refine (head?_key_groupBy hg fun g' hg' hne => ?_).trans (congrArg some hkey)
  rw [revenue_groupBy_append hg', hrevenue, ← hkey, if_neg hne.symm, add_zero]
  -- the client of another group has rows from before
  obtain ⟨row', hrow', hkey'⟩ := mem_keys_groupBy.mp (List.mem_map_of_mem hg')
  rcases List.mem_append.mp hrow' with hbefore | hlast
  · refine lt_of_le_of_lt (hmost _ ?_) htop
    rw [List.mem_toFinset, ← hkey']
    exact List.mem_map_of_mem hbefore
  · rw [List.mem_singleton.mp hlast, ← hkey] at hkey'
    exact absurd hkey'.symm hne

end Ledger

/-! ## The chart -/

section Chart

variable {α : Type} [Amount α]

namespace Snapshot

/-- The names of the entries on the chart of clients. -/
def shownNames (s : Snapshot α) : List String :=
  (ExecutiveView.of s).clients.map ClientEntry.fullName

/-- The clients that have an entry of their own. -/
def shownClients (s : Snapshot α) : List String :=
  ((groupBy s.rows Row.customer).take ExecutiveView.topClients).map Group.key

/-- There are clients without one. -/
def HasTail (s : Snapshot α) : Prop :=
  ExecutiveView.topClients < (ExecutiveView.of s).clientCount

instance (s : Snapshot α) : Decidable s.HasTail :=
  inferInstanceAs (Decidable (_ < _))

/-- The snapshot with one more row. -/
def push (s : Snapshot α) (row : Row α) : Snapshot α := ⟨s.rows ++ [row], s.degraded⟩

lemma clients_eq (s : Snapshot α) : (ExecutiveView.of s).clients =
    (topWithOthers ExecutiveView.topClients (groupBy s.rows Row.customer)).map fun g =>
      ⟨ExecutiveView.displayName g.key, g.key, g.revenue, g.count⟩ := rfl

lemma nodup_clients (s : Snapshot α) : ((groupBy s.rows Row.customer).map Group.key).Nodup :=
  nodup_keys_groupByKeys _ _

lemma shownNames_eq (s : Snapshot α) : s.shownNames =
    (topWithOthers ExecutiveView.topClients (groupBy s.rows Row.customer)).map Group.key := by
  simp [shownNames, ExecutiveView.of, Function.comp_def]

lemma count_shownNames (s : Snapshot α) (name : String) : s.shownNames.count name =
    (if name ∈ s.shownClients then 1 else 0) + if s.HasTail ∧ name = others then 1 else 0 := by
  rw [shownNames_eq]
  exact count_key_topWithOthers s.nodup_clients name

/-- The names of the entries are distinct unless the one of the end is taken. -/
theorem nodup_shownNames_iff (s : Snapshot α) :
    s.shownNames.Nodup ↔ ¬ (s.HasTail ∧ others ∈ s.shownClients) := by
  rw [shownNames_eq]
  exact nodup_key_topWithOthers s.nodup_clients

lemma mem_of_mem_shownClients {s : Snapshot α} {key : String} (h : key ∈ s.shownClients) :
    ∃ row ∈ s.rows, keyOf row.customer = key := by
  rw [shownClients, List.map_take] at h
  exact mem_keys_groupBy.mp (List.mem_of_mem_take h)

/-- Whoever leads the ranking has an entry of its own. -/
lemma mem_shownClients_of_head? {s : Snapshot α} {key : String}
    (h : ((groupBy s.rows Row.customer).map Group.key).head? = some key) :
    key ∈ s.shownClients := by
  obtain ⟨rest, hrest⟩ := List.head?_eq_some_iff.mp h
  rw [shownClients, List.map_take, hrest]
  exact List.mem_cons_self

/-- One more row does not bring fewer clients. -/
lemma HasTail.push {s : Snapshot α} (h : s.HasTail) (row : Row α) : (s.push row).HasTail := by
  refine h.trans_le ?_
  show (groupBy s.rows Row.customer).length ≤ (groupBy (s.push row).rows Row.customer).length
  rw [← List.length_map Group.key, ← List.length_map Group.key]
  refine (s.nodup_clients.subperm fun key hkey => ?_).length_le
  obtain ⟨row', hrow', hkey'⟩ := mem_keys_groupBy.mp hkey
  exact mem_keys_groupBy.mpr ⟨row', List.mem_append_left _ hrow', hkey'⟩

end Snapshot

/-- What the entries on the chart of clients are, and which names they have. -/
structure ClientEntries (value : α → ℚ) (s : Snapshot α) : Prop where
  /-- An entry before the end stands for the rows of one client. -/
  single : ∀ c ∈ (ExecutiveView.of s).clients.take ExecutiveView.topClients,
    c.fullName ∈ s.shownClients ∧
      c.revenue = Amount.total
        ((s.rows.filter fun row => keyOf row.customer = c.fullName).map Row.amount) ∧
      c.count = s.rows.countP fun row => keyOf row.customer = c.fullName
  /-- The entry at the end stands for the rows of all clients without one. -/
  rest : ∀ c ∈ (ExecutiveView.of s).clients.drop ExecutiveView.topClients,
    c.fullName = others ∧
      c.count = s.rows.countP fun row => keyOf row.customer ∉ s.shownClients
  /-- A name stands there once for its client and once for the end. -/
  count : ∀ name, s.shownNames.count name =
    (if name ∈ s.shownClients then 1 else 0) + if s.HasTail ∧ name = others then 1 else 0
  /-- So the names are distinct unless a client with an entry has the name of the end. -/
  distinct : s.shownNames.Nodup ↔ ¬ (s.HasTail ∧ others ∈ s.shownClients)
  /-- They are if there is no client of this name. -/
  free : (∀ row ∈ s.rows, keyOf row.customer ≠ others) → s.shownNames.Nodup
  /-- The chart does not tell them apart either. -/
  alike : ∀ c ∈ (ExecutiveView.of s).clients, c.fullName = others → c.name = others
  /-- Read exactly, whenever there is an end, one more row makes two entries of its name. -/
  reached : (s.reading value).HasTail → ∃ row : Row ℚ, row.customer = some others ∧
    ((s.reading value).push row).shownNames.count others = 2

/-- The entries of the client ranking, and when their names are distinct. -/
theorem clientEntries (value : α → ℚ) (s : Snapshot α) : ClientEntries value s where
  single c hc := by
    rw [s.clients_eq, ← List.map_take, take_topWithOthers le_rfl] at hc
    obtain ⟨g, hg, rfl⟩ := List.mem_map.mp hc
    exact ⟨List.mem_map_of_mem hg, groupBy_spec (List.mem_of_mem_take hg)⟩
  rest c hc := by
    rw [s.clients_eq, ← List.map_drop] at hc
    obtain ⟨g, hg, rfl⟩ := List.mem_map.mp hc
    rw [eq_merged_of_mem_drop hg]
    exact ⟨rfl, countOf_drop_groupBy _⟩
  count := s.count_shownNames
  distinct := s.nodup_shownNames_iff
  free hrows := by
    rw [s.nodup_shownNames_iff]
    rintro ⟨-, hmem⟩
    obtain ⟨row, hrow, hkey⟩ := Snapshot.mem_of_mem_shownClients hmem
    exact hrows row hrow hkey
  alike c hc hname := by
    rw [s.clients_eq] at hc
    obtain ⟨g, -, rfl⟩ := List.mem_map.mp hc
    exact (if_pos hname).trans hname
  reached htail := by
    obtain ⟨row, hrow, hhead⟩ := exists_row_leading (s.reading value).rows others
    have hothers : keyOf (some others) = others := by decide
    rw [hothers] at hhead
    refine ⟨row, hrow, ?_⟩
    rw [Snapshot.count_shownNames, if_pos (Snapshot.mem_shownClients_of_head? hhead),
      if_pos ⟨htail.push row, rfl⟩]

end Chart

/-! ## A client named like the end -/

/-- Nine clients with the same revenue, and two with less. -/
def clashingClients : List (String × Binary64) :=
  [("A", ⟨0x4059000000000000⟩), ("B", ⟨0x4059000000000000⟩), ("C", ⟨0x4059000000000000⟩),
    ("D", ⟨0x4059000000000000⟩), ("E", ⟨0x4059000000000000⟩), ("F", ⟨0x4059000000000000⟩),
    ("G", ⟨0x4059000000000000⟩), ("H", ⟨0x4059000000000000⟩), ("I", ⟨0x4059000000000000⟩),
    (others, ⟨0x4024000000000000⟩), ("P", ⟨0x4024000000000000⟩)]

/-- A row for each of them. -/
def clashingSheet : Snapshot Binary64 :=
  ⟨clashingClients.map fun c => ⟨some c.1, none, none, none, none, some c.2⟩, false⟩

lemma groupBy_clashingSheet :
    groupBy clashingSheet.rows Row.customer = clashingClients.map fun c => ⟨c.1, c.2, 1⟩ := by
  have htally : (tally clashingSheet.rows fun row => [keyOf row.customer]) =
      clashingClients.map fun c => (c.1, c.2, 1) := by
    decide
  rw [groupBy, groupByKeys, htally, List.map_map]
  exact List.mergeSort_of_pairwise (by decide)

/-- The names of the entries are not distinct on every sheet. -/
theorem shownNames_not_distinct : ¬ ∀ s : Snapshot Binary64,
    ((ExecutiveView.of s).clients.map ClientEntry.fullName).Nodup := by
  intro h
  have hclash : clashingSheet.HasTail ∧ others ∈ clashingSheet.shownClients := by
    constructor
    · show 10 < (groupBy clashingSheet.rows Row.customer).length
      rw [groupBy_clashingSheet]
      decide
    · rw [Snapshot.shownClients, groupBy_clashingSheet]
      decide
  exact clashingSheet.nodup_shownNames_iff.mp (h clashingSheet) hclash

end RevenueDesk
