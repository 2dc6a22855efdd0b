/-
# Rows collected under keys

Groups, months, quarters and breakdowns are all collected in the same way: row by row, the
key of the row is given a new value that is made of the one it held and of the row.  What
the keys hold in the end is known from the rows alone:

* `nodup_keys_collect`, `mem_keys_collect`: every key that some row has is there, once;
* `measure_of_mem_collect`: what a key holds measures as much as the rows that have the key;
* `sum_measure_collect`: all keys together measure as much as all rows.

Keys do not see the rows of other keys (`filter_collect`).  Nothing depends on the order of the
rows, if two rows may change places under a key (`collect_perm`), and all of it can be carried
over to rows in other terms (`collect_map`).
-/
import Mathlib.Algebra.BigOperators.Group.List.Basic
import Mathlib.Data.List.Induction
import Mathlib.Data.List.Nodup
import RevenueDesk.Keyed

namespace RevenueDesk.Keyed

variable {κ β γ ρ σ M : Type} [DecidableEq κ]

/-! ## Keys that occur once -/

lemma nodup_keys_update {k : κ} {f : Option β → β} {t : List (κ × β)}
    (h : (t.map Prod.fst).Nodup) : ((update k f t).map Prod.fst).Nodup := by
  rw [keys_update]
  split
  · exact h
  · rename_i hk
    rw [List.nodup_append]
    refine ⟨h, List.nodup_singleton k, fun a ha b hb => ?_⟩
    obtain rfl := List.mem_singleton.mp hb
    rintro rfl
    exact hk ha

lemma mem_keys_update {j k : κ} {f : Option β → β} {t : List (κ × β)} :
    j ∈ (update k f t).map Prod.fst ↔ j = k ∨ j ∈ t.map Prod.fst := by
  rw [keys_update]
  split
  · rename_i hk
    constructor
    · exact Or.inr
    · rintro (rfl | hj)
      · exact hk
      · exact hj
  · rw [List.mem_append, List.mem_singleton, or_comm]

/-- What a key holds is an entry. -/
lemma mem_of_find?_eq_some {t : List (κ × β)} {k : κ} {v : β} (h : find? k t = some v) :
    (k, v) ∈ t := by
  induction t with
  | nil => exact absurd h (by simp)
  | cons row rows ih =>
    rw [find?] at h
    split_ifs at h with hk
    · rw [← hk, ← Option.some.inj h]
      exact List.mem_cons_self
    · exact List.mem_cons_of_mem _ (ih h)

/-- If no key occurs twice, an entry is there exactly if its key holds its value. -/
lemma mem_iff_find?_eq_some {t : List (κ × β)} (h : (t.map Prod.fst).Nodup) {k : κ} {v : β} :
    (k, v) ∈ t ↔ find? k t = some v := by
  induction t with
  | nil => simp
  | cons row rows ih =>
    obtain ⟨hrow, hrows⟩ := List.nodup_cons.mp h
    rw [List.mem_cons, find?]
    split
    · rename_i hk
      constructor
      · rintro (hrow' | hmem)
        · rw [← hrow']
        · exact absurd (List.mem_map.mpr ⟨(k, v), hmem, hk.symm⟩) hrow
      · intro hv
        exact Or.inl (Prod.ext hk.symm (Option.some.inj hv).symm)
    · rename_i hk
      rw [← ih hrows]
      refine or_iff_right ?_
      rintro rfl
      exact hk rfl

/-- Keys and values side by side: a key holds the value at its place. -/
lemma find?_zip {ks : List κ} (h : ks.Nodup) {i : Nat} {k : κ} (hk : ks[i]? = some k)
    (vs : List β) : find? k (ks.zip vs) = vs[i]? := by
  induction ks generalizing i vs with
  | nil => simp at hk
  | cons j ks ih =>
    obtain ⟨hj, hks⟩ := List.nodup_cons.mp h
    cases vs with
    | nil => simp
    | cons v vs =>
      rw [List.zip_cons_cons, find?]
      cases i with
      | zero =>
        obtain rfl : j = k := by simpa using hk
        simp
      | succ i =>
        have hne : j ≠ k := by
          rintro rfl
          exact hj (List.mem_of_getElem? hk)
        rw [if_neg hne, List.getElem?_cons_succ]
        exact ih hks hk vs

/-! ## Collecting -/

/-- Rows collected under their keys, from the first one to the last. -/
def collect (key : ρ → κ) (put : ρ → Option β → β) (rows : List ρ) : List (κ × β) :=
  rows.foldl (fun t row => update (key row) (put row) t) []

variable {key : ρ → κ} {put : ρ → Option β → β}

@[simp] lemma collect_nil : collect key put [] = [] := rfl

lemma collect_concat (rows : List ρ) (row : ρ) :
    collect key put (rows ++ [row]) = update (key row) (put row) (collect key put rows) := by
  simp [collect]

/-- No key occurs twice. -/
theorem nodup_keys_collect (rows : List ρ) : ((collect key put rows).map Prod.fst).Nodup := by
  induction rows using List.reverseRecOn with
  | nil => simp
  | append_singleton rows row ih =>
    rw [collect_concat]
    exact nodup_keys_update ih

/-- The keys are those of the rows. -/
theorem mem_keys_collect {rows : List ρ} {k : κ} :
    k ∈ (collect key put rows).map Prod.fst ↔ ∃ row ∈ rows, key row = k := by
  induction rows using List.reverseRecOn with
  | nil => simp
  | append_singleton rows row ih =>
    rw [collect_concat, mem_keys_update, ih]
    constructor
    · rintro (rfl | ⟨row', hrow', rfl⟩)
      · exact ⟨row, by simp, rfl⟩
      · exact ⟨row', by simp [hrow'], rfl⟩
    · rintro ⟨row', hrow', rfl⟩
      rcases List.mem_append.mp hrow' with hbefore | hlast
      · exact Or.inr ⟨row', hbefore, rfl⟩
      · exact Or.inl (by rw [List.mem_singleton.mp hlast])

/-- Repeats are erased one row at a time: a row at the end is new, or is there already. -/
lemma eraseDups_concat (ks : List κ) (k : κ) :
    (ks ++ [k]).eraseDups = if k ∈ ks then ks.eraseDups else ks.eraseDups ++ [k] := by
  rw [List.eraseDups_append]
  by_cases hk : k ∈ ks <;> simp [List.removeAll, List.eraseDups_cons, hk]

variable (key put) in
/-- They come in the order in which they first occur. -/
theorem keys_collect (rows : List ρ) :
    (collect key put rows).map Prod.fst = (rows.map key).eraseDups := by
  induction rows using List.reverseRecOn with
  | nil => rfl
  | append_singleton rows row ih =>
    rw [collect_concat, keys_update, ih, List.map_append, List.map_singleton, eraseDups_concat]
    simp only [List.mem_eraseDups]

/-- Once the repeats are erased, nothing occurs twice. -/
lemma nodup_eraseDups (ks : List κ) : ks.eraseDups.Nodup := by
  rw [← List.map_id ks, ← keys_collect id (fun _ _ => ())]
  exact nodup_keys_collect ks

/-! ## Changing what is there -/

lemma keys_adjust (k : κ) (f : β → β) (t : List (κ × β)) :
    (adjust k f t).map Prod.fst = t.map Prod.fst := by
  rw [adjust, List.map_map]
  refine List.map_congr_left fun row _ => ?_
  rw [Function.comp_apply]
  split <;> rfl

lemma find?_adjust (j k : κ) (f : β → β) (t : List (κ × β)) :
    find? j (adjust k f t) = if j = k then (find? j t).map f else find? j t := by
  induction t with
  | nil => simp [adjust]
  | cons row rows ih =>
    rw [adjust] at ih ⊢
    rw [List.map_cons, find?, find?, ih]
    by_cases hk : row.1 = k
    · by_cases hj : k = j
      · simp [hk, hj]
      · simp [hk, hj, Ne.symm hj]
    · by_cases hj : row.1 = j
      · simp [hj, hj ▸ hk]
      · simp [hk, hj]

section Adjusting

variable (key : ρ → κ) (change : ρ → β → β)

/-- Rows that change what is there bring in no key. -/
lemma keys_foldl_adjust (rows : List ρ) (t : List (κ × β)) :
    (rows.foldl (fun t row => adjust (key row) (change row) t) t).map Prod.fst =
      t.map Prod.fst := by
  induction rows generalizing t with
  | nil => rfl
  | cons row rows ih => rw [List.foldl_cons, ih, keys_adjust]

/-- A key that is there is changed by its own rows, one after the other. -/
lemma find?_foldl_adjust (rows : List ρ) (t : List (κ × β)) (k : κ) :
    find? k (rows.foldl (fun t row => adjust (key row) (change row) t) t) =
      (find? k t).map fun v =>
        (rows.filter fun row => key row = k).foldl (fun v row => change row v) v := by
  induction rows generalizing t with
  | nil => simp
  | cons row rows ih =>
    rw [List.foldl_cons, ih, find?_adjust]
    by_cases hk : key row = k
    · simp [hk, Function.comp_def]
    · simp [hk, Ne.symm hk]

end Adjusting

/-- A table in which no key occurs twice is the list of its keys with what they hold. -/
lemma eq_map_keys {t : List (κ × β)} (h : (t.map Prod.fst).Nodup) {value : κ → β}
    (hvalue : ∀ k ∈ t.map Prod.fst, find? k t = some (value k)) :
    t = (t.map Prod.fst).map fun k => (k, value k) := by
  rw [List.map_map]
  refine (List.map_id t).symm.trans (List.map_congr_left fun e he => ?_)
  have hfind := (mem_iff_find?_eq_some h).mp he
  rw [hvalue e.1 (List.mem_map_of_mem he)] at hfind
  exact Prod.ext rfl (Option.some.inj hfind).symm

/-! ## Some of the keys -/

lemma filter_update (p : κ → Bool) (k : κ) (f : Option β → β) (t : List (κ × β)) :
    (update k f t).filter (fun e => p e.1) =
      if p k then update k f (t.filter fun e => p e.1) else t.filter fun e => p e.1 := by
  induction t with
  | nil => by_cases hk : p k = true <;> simp [update, hk]
  | cons row rows ih =>
    by_cases hrow : row.1 = k
    · by_cases hk : p k = true <;> simp [update, hrow, hk]
    · by_cases hp : p row.1 = true
      · simp only [update, hrow, if_false, List.filter_cons, hp, if_true, ih]
        split <;> rfl
      · simp only [update, hrow, if_false, List.filter_cons, hp, ih]
        rfl

/-- Keys that are not asked for may be left out before the rows are collected or afterwards. -/
theorem filter_collect (p : κ → Bool) (rows : List ρ) :
    (collect key put rows).filter (fun e => p e.1) =
      collect key put (rows.filter fun row => p (key row)) := by
  induction rows using List.reverseRecOn with
  | nil => rfl
  | append_singleton rows row ih =>
    rw [collect_concat, filter_update, ih, List.filter_append]
    by_cases hp : p (key row) = true
    · simp [hp, collect_concat]
    · simp [hp]

/-! ## Rows in any order -/

/-- Two rows may come in either order. -/
def Commutes (put : ρ → Option β → β) : Prop :=
  ∀ row row' held, put row (some (put row' held)) = put row' (some (put row held))

/-- A key holds what its own rows have left, one after the other. -/
lemma find?_collect (rows : List ρ) (k : κ) :
    find? k (collect key put rows) =
      (rows.filter fun row => key row = k).foldl (fun held row => some (put row held)) none := by
  induction rows using List.reverseRecOn with
  | nil => rfl
  | append_singleton rows row ih =>
    rw [collect_concat, find?_update, List.filter_append, List.foldl_append, ← ih]
    by_cases hk : k = key row
    · subst hk
      simp
    · have hk' : ¬ key row = k := fun e => hk e.symm
      rw [if_neg hk]
      simp [hk']

/-- The same rows leave the same under every key, whatever their order is. -/
theorem collect_perm (h : Commutes put) {rows rows' : List ρ} (hrows : rows.Perm rows') :
    (collect key put rows).Perm (collect key put rows') := by
  have hfind : ∀ k, find? k (collect key put rows) = find? k (collect key put rows') := by
    intro k
    rw [find?_collect, find?_collect]
    refine (hrows.filter _).foldl_eq' ?_ none
    intro row _ row' _ held
    exact congrArg some (h row' row held)
  have hnodup : ((collect key put rows).map Prod.fst).Nodup := nodup_keys_collect rows
  have hnodup' : ((collect key put rows').map Prod.fst).Nodup := nodup_keys_collect rows'
  rw [List.perm_ext_iff_of_nodup hnodup.of_map hnodup'.of_map]
  rintro ⟨k, v⟩
  rw [mem_iff_find?_eq_some hnodup, hfind, mem_iff_find?_eq_some hnodup']

/-! ## Rows in other terms -/

lemma update_map {h : β → γ} {k : κ} {f : Option β → β} {f' : Option γ → γ}
    (hf : ∀ held, f' (held.map h) = h (f held)) (t : List (κ × β)) :
    update k f' (t.map (Prod.map id h)) = (update k f t).map (Prod.map id h) := by
  induction t with
  | nil => exact congrArg (fun v => [(k, v)]) (hf none)
  | cons row rows ih =>
    by_cases hk : row.1 = k
    · simpa [update, hk] using hf (some row.2)
    · simpa [update, hk] using ih

/-- If `h` carries what rows leave over to what the rows `g row` leave under the same keys, it
carries over all that is collected. -/
theorem collect_map {key' : σ → κ} {put' : σ → Option γ → γ} {g : ρ → σ} {h : β → γ}
    (hkey : ∀ row, key' (g row) = key row)
    (hput : ∀ row held, put' (g row) (held.map h) = h (put row held)) (rows : List ρ) :
    collect key' put' (rows.map g) = (collect key put rows).map (Prod.map id h) := by
  induction rows using List.reverseRecOn with
  | nil => rfl
  | append_singleton rows row ih =>
    rw [List.map_append, List.map_singleton, collect_concat, collect_concat, ih, hkey]
    exact update_map (hput row) _

/-! ## Measures -/

section Measure

variable [AddCommMonoid M] {measure : β → M} {share : ρ → M}

/-- A key that holds nothing measures nothing. -/
def measured (measure : β → M) (held : Option β) : M := held.elim 0 measure

/-- Every row adds its share to the measure of what its key holds. -/
def AddsShare (put : ρ → Option β → β) (measure : β → M) (share : ρ → M) : Prop :=
  ∀ row held, measure (put row held) = measured measure held + share row

lemma sum_measure_update {k : κ} {f : Option β → β} {x : M}
    (hf : ∀ held, measure (f held) = measured measure held + x) (t : List (κ × β)) :
    ((update k f t).map fun e => measure e.2).sum = (t.map fun e => measure e.2).sum + x := by
  induction t with
  | nil => simp [update, hf, measured]
  | cons row rows ih =>
    rw [update]
    split
    · simp only [List.map_cons, List.sum_cons, hf, measured, Option.elim_some]
      exact add_right_comm _ _ _
    · simp only [List.map_cons, List.sum_cons, ih, add_assoc]

variable (h : AddsShare put measure share)
include h

/-- All keys together measure as much as all rows. -/
theorem sum_measure_collect (rows : List ρ) :
    ((collect key put rows).map fun e => measure e.2).sum = (rows.map share).sum := by
  induction rows using List.reverseRecOn with
  | nil => rfl
  | append_singleton rows row ih =>
    rw [collect_concat, sum_measure_update (h row), ih, List.map_append, List.sum_append]
    simp

/-- A key holds what its own rows have added. -/
lemma measured_find?_collect (rows : List ρ) (k : κ) :
    measured measure (find? k (collect key put rows)) =
      ((rows.filter fun row => key row = k).map share).sum := by
  induction rows using List.reverseRecOn with
  | nil => rfl
  | append_singleton rows row ih =>
    rw [collect_concat, find?_update, List.filter_append, List.map_append, List.sum_append, ← ih]
    by_cases hk : k = key row
    · rw [if_pos hk, ← hk]
      simp [measured, h row, hk]
    · have hk' : ¬ key row = k := fun e => hk e.symm
      rw [if_neg hk]
      simp [hk']

/-- What a key holds measures as much as the rows that have the key. -/
theorem measure_of_mem_collect {rows : List ρ} {k : κ} {v : β}
    (hmem : (k, v) ∈ collect key put rows) :
    measure v = ((rows.filter fun row => key row = k).map share).sum := by
  have hfind := (mem_iff_find?_eq_some (nodup_keys_collect rows)).mp hmem
  rw [← measured_find?_collect h, hfind]
  rfl

end Measure

end RevenueDesk.Keyed
