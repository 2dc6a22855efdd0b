/-
# Rankings

A ranking puts larger revenue first and lets the keys decide between equal revenue.  If the
figures can be ranked, as doubles and exact numbers can, no two entries with different keys
come at the same place:

* `rankBy_eq_of_perm`: the order before does not show in a ranking;
* `Group.eq_of_perm_of_pairwise`: groups have one order in which each stands before the next.
-/
import Mathlib.Order.Compare
import RevenueDesk.Proofs.Ledger.Exact
import RevenueDesk.Proofs.Ledger.Sorting

namespace RevenueDesk

/-! ## Figures that can be ranked -/

/-- The order of rankings puts any two different figures one after the other. -/
class Amount.Ranks (α : Type) [Amount α] : Prop extends
    Std.TransCmp (Amount.rank : α → α → Ordering), Std.LawfulEqCmp (Amount.rank : α → α → Ordering)

instance : Amount.Ranks Binary64 where
  eq_swap := (inferInstance : Std.OrientedCmp (compareOn Binary64.rankPlace)).eq_swap
  isLE_trans := (inferInstance : Std.TransCmp (compareOn Binary64.rankPlace)).isLE_trans
  compare_self := Binary64.rank_eq_eq_iff.mpr rfl
  eq_of_compare := Binary64.rank_eq_eq_iff.mp

instance {K : Type} [Field K] [LinearOrder K] : Amount.Ranks K where
  eq_swap := (inferInstance : Std.OrientedCmp (compare : K → K → Ordering)).eq_swap
  isLE_trans := (inferInstance : Std.TransCmp (compare : K → K → Ordering)).isLE_trans
  compare_self := compare_eq_iff_eq.mpr rfl
  eq_of_compare := compare_eq_iff_eq.mp

/-- No figure comes before itself. -/
lemma Amount.rank_self_ne {α : Type} [Amount α] [Amount.Ranks α] (x : α) :
    Amount.rank x x ≠ .lt := by
  have hself : Amount.rank x x = .eq := Std.ReflCmp.compare_self
  rw [hself]
  simp

namespace Ledger

variable {α : Type} [Amount α] {β : Type} {figure : β → String × α}

/-! ## The order of rankings -/

section Ranks

variable [Amount.Ranks α]

lemma rankedBefore_iff_rank {a b : String × α} : rankedBefore a b = true ↔
    Amount.rank b.2 a.2 = .lt ∨ a.2 = b.2 ∧ a.1 ≤ b.1 := by
  have heq : Amount.rank b.2 a.2 = .eq ↔ b.2 = a.2 := Std.LawfulEqCmp.compare_eq_iff_eq
  unfold rankedBefore
  cases hrank : Amount.rank b.2 a.2 with
  | lt => simp
  | gt =>
    have hne : b.2 ≠ a.2 := fun e => by simp [heq.mpr e] at hrank
    simp [hne.symm]
  | eq => simp [heq.mp hrank]

/-- It tells any two entries with different keys apart. -/
lemma arranges_rankedBefore : Arranges (rankedBefore : String × α → String × α → Bool) where
  trans {a b c} hab hbc := by
    rw [rankedBefore_iff_rank] at hab hbc ⊢
    rcases hab with hab | ⟨hab, hkeys⟩
    · rcases hbc with hbc | ⟨hbc, -⟩
      · exact Or.inl (Std.TransCmp.lt_trans hbc hab)
      · exact Or.inl (hbc ▸ hab)
    · rcases hbc with hbc | ⟨hbc, hkeys'⟩
      · exact Or.inl (hab ▸ hbc)
      · exact Or.inr ⟨hab.trans hbc, String.le_trans hkeys hkeys'⟩
  total a b := by
    rw [Bool.or_eq_true, rankedBefore_iff_rank, rankedBefore_iff_rank]
    cases hrank : Amount.rank a.2 b.2 with
    | lt => exact Or.inr (Or.inl rfl)
    | gt => exact Or.inl (Or.inl (Std.OrientedCmp.gt_iff_lt.mp hrank))
    | eq =>
      have heq := Std.LawfulEqCmp.eq_of_compare hrank
      rcases String.le_total a.1 b.1 with hkey | hkey
      · exact Or.inl (Or.inr ⟨heq, hkey⟩)
      · exact Or.inr (Or.inr ⟨heq.symm, hkey⟩)
  antisymm {a b} hab hba := by
    rw [rankedBefore_iff_rank] at hab hba
    rcases hab with hab | ⟨hab, hkeys⟩
    · rcases hba with hba | ⟨hba, -⟩
      · exact absurd hba (Std.OrientedCmp.not_lt_of_lt hab)
      · exact absurd (hba ▸ hab) (Amount.rank_self_ne a.2)
    · rcases hba with hba | ⟨-, hkeys'⟩
      · exact absurd (hab ▸ hba) (Amount.rank_self_ne b.2)
      · exact Prod.ext (String.le_antisymm hkeys hkeys') hab

/-- If no key occurs twice, the order before does not show in a ranking. -/
theorem rankBy_eq_of_perm {xs ys : List β} (h : xs.Perm ys)
    (hkeys : (xs.map fun x => (figure x).1).Nodup) : rankBy figure xs = rankBy figure ys := by
  refine arranges_rankedBefore.mergeSort_eq h (List.Nodup.of_map Prod.fst ?_)
  rwa [List.map_map]

end Ranks

lemma rankBy_perm (figure : β → String × α) (xs : List β) : (rankBy figure xs).Perm xs :=
  List.mergeSort_perm xs _

/-- Ranked entries follow one another from the largest revenue to the smallest, and in the
order of their keys where the revenue is the same. -/
theorem pairwise_rankBy {K : Type} [Field K] [LinearOrder K] (figure : β → String × K)
    (xs : List β) : (rankBy figure xs).Pairwise fun a b =>
      (figure b).2 < (figure a).2 ∨ (figure a).2 = (figure b).2 ∧ (figure a).1 ≤ (figure b).1 :=
  (arranges_rankedBefore.pairwise_mergeSort xs).imp rankedBefore_iff.mp

end Ledger

/-! ## Groups one after the other -/

namespace Group

open Ledger

variable {α : Type} [Amount α]

/-- `a` has more revenue than `b`, or the same revenue and an earlier key. -/
def Before (a b : Group α) : Prop :=
  Amount.rank b.revenue a.revenue = .lt ∨ a.revenue = b.revenue ∧ a.key < b.key

variable [Amount.Ranks α]

lemma Before.asymm {a b : Group α} (hab : a.Before b) : ¬ b.Before a := by
  rintro (hba | ⟨hba, hkeys'⟩)
  · rcases hab with hab | ⟨hab, -⟩
    · exact Std.OrientedCmp.not_lt_of_lt hab hba
    · exact Amount.rank_self_ne b.revenue (hab ▸ hba)
  · rcases hab with hab | ⟨-, hkeys⟩
    · exact Amount.rank_self_ne a.revenue (hba ▸ hab)
    · exact String.lt_asymm hkeys hkeys'

/-- Groups have one order in which each stands before the next. -/
theorem eq_of_perm_of_pairwise {gs gs' : List (Group α)} (h : gs.Perm gs')
    (hgs : gs.Pairwise Before) (hgs' : gs'.Pairwise Before) : gs = gs' :=
  h.eq_of_pairwise (fun _ _ _ _ hab hba => absurd hba hab.asymm) hgs hgs'

/-- If no key occurs twice, ranked groups stand in this order. -/
theorem pairwise_ranked {gs : List (Group α)} (h : (gs.map key).Nodup) :
    (ranked gs).Pairwise Before := by
  have hkeys : ((ranked gs).map key).Nodup := ((rankBy_perm _ gs).map key).nodup_iff.mpr h
  have hdistinct := List.pairwise_map.mp hkeys
  refine (arranges_rankedBefore.pairwise_mergeSort gs).imp₂ (fun a b hab hne => ?_) hdistinct
  rcases rankedBefore_iff_rank.mp hab with hlt | ⟨heq, hle⟩
  · exact Or.inl hlt
  · exact Or.inr ⟨heq, String.not_le.mp fun hge => hne (String.le_antisymm hle hge)⟩

end Group

end RevenueDesk
