/-
# Sorted lists

The lists that the views show are sorted: groups by their revenue and their key, months and
quarters by time.  Each of these orders tells any two keys apart, so a list in which no key
occurs twice has one sorted form, whatever order it comes in (`Arranges.mergeSort_eq`).

This is all that has to be known of the tables in which rows are collected: nothing shows in
which order their entries come out.
-/
import Mathlib.Data.List.Nodup
import RevenueDesk.Calendar

namespace RevenueDesk

/-- The check `r` says of any two keys which one comes first. -/
structure Arranges {κ : Type} (r : κ → κ → Bool) : Prop where
  trans : ∀ {a b c}, r a b = true → r b c = true → r a c = true
  total : ∀ a b, (r a b || r b a) = true
  antisymm : ∀ {a b}, r a b = true → r b a = true → a = b

namespace Arranges

variable {κ β : Type} {r : κ → κ → Bool} {f : β → κ}

lemma pairwise_mergeSort (h : Arranges r) (xs : List β) :
    (xs.mergeSort fun a b => r (f a) (f b)).Pairwise fun a b => r (f a) (f b) = true := by
  refine List.pairwise_mergeSort (fun a b c => ?_) (fun a b => ?_) xs
  · exact h.trans
  · exact h.total (f a) (f b)

/-- If no key occurs twice, neighbours in the sorted list have different keys. -/
lemma pairwise_mergeSort_ne (h : Arranges r) {xs : List β} (hkeys : (xs.map f).Nodup) :
    (xs.mergeSort fun a b => r (f a) (f b)).Pairwise fun a b =>
      r (f a) (f b) = true ∧ f a ≠ f b := by
  have hperm : (xs.mergeSort fun a b => r (f a) (f b)).Perm xs := List.mergeSort_perm _ _
  have hdistinct := List.pairwise_map.mp ((hperm.map f).nodup_iff.mpr hkeys)
  exact (h.pairwise_mergeSort xs).and hdistinct

/-- If no key occurs twice, the order before does not show in the sorted list. -/
theorem mergeSort_eq (h : Arranges r) {xs ys : List β} (hperm : xs.Perm ys)
    (hkeys : (xs.map f).Nodup) :
    (xs.mergeSort fun a b => r (f a) (f b)) = ys.mergeSort fun a b => r (f a) (f b) := by
  refine List.Perm.eq_of_pairwise ?_ (h.pairwise_mergeSort xs) (h.pairwise_mergeSort ys)
    (((List.mergeSort_perm _ _).trans hperm).trans (List.mergeSort_perm _ _).symm)
  intro a b ha hb hab hba
  have ha' : a ∈ xs := List.mem_mergeSort.mp ha
  have hb' : b ∈ xs := hperm.symm.mem_iff.mp (List.mem_mergeSort.mp hb)
  exact List.inj_on_of_nodup_map hkeys ha' hb' (h.antisymm hab hba)

end Arranges

/-! ## Time -/

/-- The check `r` goes by years, and within a year by numbers, which tell its periods apart. -/
structure Chronological {κ : Type} (year : κ → Int) (number : κ → Nat) (r : κ → κ → Bool) : Prop where
  iff : ∀ {a b}, r a b = true ↔ year a < year b ∨ year a = year b ∧ number a ≤ number b
  inj : ∀ {a b}, year a = year b → number a = number b → a = b

namespace Chronological

variable {κ : Type} {year : κ → Int} {number : κ → Nat} {r : κ → κ → Bool}

lemma arranges (h : Chronological year number r) : Arranges r where
  trans hab hbc := by
    rw [h.iff] at hab hbc ⊢
    omega
  total a b := by
    rw [Bool.or_eq_true, h.iff, h.iff]
    omega
  antisymm hab hba := by
    rw [h.iff] at hab hba
    exact h.inj (by omega) (by omega)

/-- Of two periods that follow one another and differ, the first one is earlier. -/
lemma earlier (h : Chronological year number r) {a b : κ} (hab : r a b = true) (hne : a ≠ b) :
    year a < year b ∨ year a = year b ∧ number a < number b := by
  rcases h.iff.mp hab with hyear | ⟨hyear, hnumber⟩
  · exact .inl hyear
  · exact .inr ⟨hyear, Nat.lt_of_le_of_ne hnumber fun heq => hne (h.inj hyear heq)⟩

end Chronological

lemma Month.chronological : Chronological year number atMost where
  iff := by simp [atMost]
  inj {a b} hyear hnumber := by
    cases a
    cases b
    exact congrArg₂ mk hyear hnumber

lemma Quarter.number_injective : Function.Injective number := by
  intro a b h
  cases a <;> cases b <;> simp [number] at h ⊢

lemma CalendarQuarter.chronological :
    Chronological year (fun q => q.quarter.number) atMost where
  iff := by simp [atMost]
  inj {a b} hyear hnumber := by
    cases a
    cases b
    exact congrArg₂ mk hyear (Quarter.number_injective hnumber)

end RevenueDesk
