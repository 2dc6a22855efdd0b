/-
# Head and concentration of a ranking

What the measures of a list of groups say about the keys and the revenue under each key.

* `isGreatest_head`: the first groups of a descending list have the largest revenue that so
  many keys can have together;
* `concentration?_eq`: the concentration is the sum of the squared shares of the keys.
-/
import Mathlib.Algebra.BigOperators.Group.Finset.Basic
import Mathlib.Algebra.Order.BigOperators.Group.List
import Mathlib.Order.Bounds.Basic
import RevenueDesk.Proofs.Ledger.Concentration

namespace RevenueDesk.Ledger

variable {K : Type} [Field K] [LinearOrder K]

/-! ## The head of a descending list -/

section Descending

variable [IsStrictOrderedRing K]

/-- Leaving out the first figure of a descending list does not make its head larger. -/
lemma sum_take_tail_le {x : K} {xs : List K} (h : (x :: xs).Pairwise (· ≥ ·)) {n : ℕ}
    (hn : n ≤ xs.length) : (xs.take n).sum ≤ ((x :: xs).take n).sum := by
  induction n generalizing x xs with
  | zero => rfl
  | succ n ih =>
    obtain ⟨y, ys, rfl⟩ := List.exists_cons_of_length_pos (Nat.zero_lt_of_lt hn)
    obtain ⟨hx, hys⟩ := List.pairwise_cons.mp h
    rw [List.take_succ_cons, List.take_succ_cons, List.sum_cons, List.sum_cons]
    have hrest := ih hys (Nat.le_of_succ_le_succ hn)
    exact add_le_add (hx y List.mem_cons_self) hrest

/-- Of all parts with the same number of figures, the head has the largest sum. -/
lemma sum_le_sum_take {xs ys : List K} (hsub : ys.Sublist xs) (h : xs.Pairwise (· ≥ ·)) :
    ys.sum ≤ (xs.take ys.length).sum := by
  induction hsub with
  | slnil => rfl
  | cons x hsub ih =>
    -- the part does without `x`, and the head with `x` is no smaller than the one without
    exact (ih (List.pairwise_cons.mp h).2).trans (sum_take_tail_le h hsub.length_le)
  | cons_cons x hsub ih =>
    rw [List.length_cons, List.take_succ_cons, List.sum_cons, List.sum_cons]
    exact add_le_add_right (ih (List.pairwise_cons.mp h).2) x

end Descending

/-! ## Groups and keys -/

section Keys

variable {α : Type} {groups : List (Group α)}

/-- The keys of groups. -/
def keySet (groups : List (Group α)) : Finset String := (groups.map Group.key).toFinset

lemma mem_keySet {key : String} : key ∈ keySet groups ↔ ∃ g ∈ groups, g.key = key := by
  rw [keySet, List.mem_toFinset, List.mem_map]

lemma card_keySet (h : (groups.map Group.key).Nodup) : (keySet groups).card = groups.length := by
  rw [keySet, List.toFinset_card_of_nodup h, List.length_map]

/-- Any keys of the list are the keys of a part of it. -/
lemma exists_sublist_keySet {S : Finset String} (hS : S ⊆ keySet groups) :
    ∃ part : List (Group α), part.Sublist groups ∧ keySet part = S := by
  refine ⟨groups.filter fun g => g.key ∈ S, List.filter_sublist, ?_⟩
  ext key
  rw [mem_keySet]
  constructor
  · rintro ⟨g, hg, rfl⟩
    simpa using (List.mem_filter.mp hg).2
  · intro hkey
    obtain ⟨g, hg, rfl⟩ := mem_keySet.mp (hS hkey)
    exact ⟨g, List.mem_filter.mpr ⟨hg, by simpa using hkey⟩, rfl⟩

end Keys

variable {groups : List (Group K)} {f : String → K}

/-- If `f` tells the revenue under each key, it tells that of any part of the groups. -/
lemma sum_keySet (h : (groups.map Group.key).Nodup) (hf : ∀ g ∈ groups, g.revenue = f g.key)
    {part : List (Group K)} (hpart : part.Sublist groups) :
    ∑ key ∈ keySet part, f key = (part.map Group.revenue).sum := by
  rw [keySet, List.sum_toFinset f (h.sublist (hpart.map _)), List.map_map]
  exact congrArg List.sum (List.map_congr_left fun g hg => (hf g (hpart.subset hg)).symm)

/-- In a descending list the first groups have the largest revenue that so many keys can have
together. -/
theorem isGreatest_head [IsStrictOrderedRing K] (h : (groups.map Group.key).Nodup)
    (hf : ∀ g ∈ groups, g.revenue = f g.key)
    (hdesc : (groups.map Group.revenue).Pairwise (· ≥ ·)) (n : ℕ) :
    IsGreatest {x | ∃ S ⊆ keySet groups, S.card = min n groups.length ∧ x = ∑ key ∈ S, f key}
      ((groups.take n).map Group.revenue).sum := by
  constructor
  · have htake := List.take_sublist n groups
    refine ⟨keySet (groups.take n), ?_, ?_, (sum_keySet h hf htake).symm⟩
    · intro key hkey
      obtain ⟨g, hg, rfl⟩ := mem_keySet.mp hkey
      exact mem_keySet.mpr ⟨g, htake.subset hg, rfl⟩
    · rw [card_keySet (h.sublist (htake.map _)), List.length_take]
  · rintro x ⟨S, hS, hcard, rfl⟩
    obtain ⟨part, hpart, rfl⟩ := exists_sublist_keySet hS
    rw [card_keySet (h.sublist (hpart.map _))] at hcard
    have hmin : groups.take (min n groups.length) = groups.take n := by
      rw [← List.take_take, List.take_length]
    have hle := sum_le_sum_take (hpart.map Group.revenue) hdesc
    rwa [List.length_map, hcard, ← List.map_take, hmin, ← sum_keySet h hf hpart] at hle

/-! ## Concentration -/

/-- The concentration is the sum of the squared shares of the keys. -/
lemma concentration?_eq (h : (groups.map Group.key).Nodup)
    (hf : ∀ g ∈ groups, g.revenue = f g.key) (hwhole : 0 < totalOf groups) :
    concentration? groups = some (∑ key ∈ keySet groups, (f key / totalOf groups) ^ 2) := by
  rw [concentration?_eq_sumSq hwhole, sumSq, partsOf, keySet, List.sum_toFinset _ h, List.map_map,
    List.map_map]
  congr 2
  refine List.map_congr_left fun g hg => ?_
  rw [Function.comp_apply, Function.comp_apply, hf g hg]

end RevenueDesk.Ledger
