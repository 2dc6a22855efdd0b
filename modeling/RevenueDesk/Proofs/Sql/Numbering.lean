/-
# Positions as ranks

The position of a name is its rank: the number of different names that occur before it does,
and one (`rank_eq`).  So the positions of the names of a list are the numbers from one up to
the number of different names, each for one name (`rank_injOn`, `exists_rank_eq`).

Positions are written as a dollar sign and a numeral.  `placeholders` reads them back off a
text.
-/
import Mathlib.Data.Finset.Card
import Mathlib.Data.List.Nodup
import RevenueDesk.Proofs.Ledger.Collecting
import RevenueDesk.Proofs.Text.Trimming
import RevenueDesk.Text.Letter

namespace RevenueDesk.Sql

/-- The rank of a name by its first occurrence in a list: how many different names come before
it, and one. -/
def rank (names : List String) (name : String) : ℕ :=
  (names.takeWhile (· ≠ name)).toFinset.card + 1

/-! ## Ranks -/

section Ranks

variable {names : List String} {name : String}

/-- Repeats are erased from the first name on: what holds of the names that differ from it,
and so of all, holds of every list. -/
lemma eraseDups_induction {P : List String → Prop} (hnil : P [])
    (hcons : ∀ a as, P (as.filter fun b => !b == a) → P (a :: as)) (names : List String) :
    P names := by
  induction hn : names.length using Nat.strongRecOn generalizing names with
  | _ n ih =>
    cases names with
    | nil => exact hnil
    | cons a as =>
      have hle := List.length_filter_le (fun b => !b == a) as
      rw [List.length_cons] at hn
      exact hcons a as (ih _ (by omega) _ rfl)

lemma length_eraseDups (names : List String) : names.eraseDups.length = names.toFinset.card := by
  rw [← List.toFinset_card_of_nodup (Keyed.nodup_eraseDups names)]
  congr 1
  ext name
  rw [List.mem_toFinset, List.mem_toFinset, List.mem_eraseDups]

/-- Leaving out the first name, wherever it occurs, takes one from the rank of any other. -/
lemma rank_cons_of_ne {a : String} {as : List String} (hne : a ≠ name) :
    rank (a :: as) name = rank (as.filter fun b => !b == a) name + 1 := by
  have hbefore : (as.filter fun b => !b == a).takeWhile (· ≠ name) =
      (as.takeWhile (· ≠ name)).filter fun b => !b == a := by
    induction as with
    | nil => rfl
    | cons b bs ih =>
      by_cases hb : b = name
      · have hba : ¬ b = a := fun h => hne (h ▸ hb)
        simp [hb, Ne.symm hne]
      · by_cases hba : b = a
        · simpa [hb, hba, hne] using ih
        · simpa [hb, hba] using ih
  have hfinset : ((as.takeWhile (· ≠ name)).filter fun b => !b == a).toFinset =
      (as.takeWhile (· ≠ name)).toFinset.erase a := by
    ext b
    simp [and_comm]
  unfold rank
  rw [hbefore, hfinset, List.takeWhile_cons_of_pos (by simpa using hne), List.toFinset_cons,
    ← Finset.card_erase_add_one (Finset.mem_insert_self a _), Finset.erase_insert_eq_erase]

/-- The rank is the place among the names without repeats. -/
theorem rank_eq (names : List String) (name : String) :
    rank names name = names.eraseDups.idxOf name + 1 := by
  induction names using eraseDups_induction with
  | hnil => simp [rank]
  | hcons a as ih =>
    rw [List.eraseDups_cons]
    by_cases ha : a = name
    · simp [rank, ha]
    · rw [rank_cons_of_ne ha, ih, List.idxOf_cons_ne _ ha]

/-- Different names have different ranks. -/
theorem rank_injOn {a b : String} (ha : a ∈ names) (h : rank names a = rank names b) : a = b := by
  rw [rank_eq, rank_eq, Nat.add_right_cancel_iff] at h
  exact (List.idxOf_inj (List.mem_eraseDups.mpr ha)).mp h

theorem rank_le (h : name ∈ names) : rank names name ≤ names.toFinset.card := by
  rw [rank_eq, ← length_eraseDups]
  exact List.idxOf_lt_length_of_mem (List.mem_eraseDups.mpr h)

/-- Every number up to the number of names is the rank of one. -/
theorem exists_rank_eq {k : ℕ} (hpos : 1 ≤ k) (hk : k ≤ names.toFinset.card) :
    ∃ name ∈ names, rank names name = k := by
  rw [← length_eraseDups] at hk
  have hlt : k - 1 < names.eraseDups.length := by omega
  refine ⟨names.eraseDups[k - 1], List.mem_eraseDups.mp (List.getElem_mem hlt), ?_⟩
  rw [rank_eq, (Keyed.nodup_eraseDups names).idxOf_getElem (k - 1) hlt]
  omega

end Ranks

/-! ## Placeholders -/

/-- The digits behind each dollar sign of a text. -/
def placeholders : List Char → List (List Char)
  | [] => []
  | c :: cs => if c = '$' then cs.takeWhile Text.isDigit :: placeholders cs else placeholders cs

lemma placeholders_append {cs : List Char} (h : '$' ∉ cs) (ds : List Char) :
    placeholders (cs ++ ds) = placeholders ds := by
  induction cs with
  | nil => rfl
  | cons c cs ih =>
    obtain ⟨hc, hcs⟩ := not_or.mp (List.mem_cons.not.mp h)
    rw [List.cons_append, placeholders, if_neg (Ne.symm hc), ih hcs]

/-- A position is read back, unless digits follow it. -/
lemma placeholders_position {ds cs : List Char} (hds : ∀ c ∈ ds, Text.isDigit c = true)
    (hcs : ∀ c ∈ cs.head?, Text.isDigit c = false) :
    placeholders ('$' :: ds ++ cs) = ds :: placeholders cs := by
  have hdollar : '$' ∉ ds := fun h => absurd (hds _ h) (by decide)
  rw [List.cons_append, placeholders, if_pos rfl, placeholders_append hdollar,
    (Text.span_eq hds hcs).1]

end RevenueDesk.Sql
