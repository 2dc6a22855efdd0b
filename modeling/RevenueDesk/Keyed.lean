/-
# Keyed rows

A list of pairs with pairwise distinct keys, in the order in which the keys first arrived.
Everything that collects rows under a key (groups, months, tables, members of an object)
is built by `Keyed.update`, whose two lemmas say all there is to know about it: what each
key holds afterwards, and that a new key goes to the end.
-/

namespace RevenueDesk.Keyed

variable {κ β : Type} [DecidableEq κ]

/-- Give the key `k` the value `f` of what it held before; a new key goes to the end. -/
def update (k : κ) (f : Option β → β) : List (κ × β) → List (κ × β)
  | [] => [(k, f none)]
  | row :: rows =>
    if row.1 = k then (row.1, f (some row.2)) :: rows else row :: update k f rows

/-- What the key `k` holds. -/
def find? (k : κ) : List (κ × β) → Option β
  | [] => none
  | row :: rows => if row.1 = k then some row.2 else find? k rows

/-- Change what the key `k` holds; a key that is not there leaves no trace. -/
def adjust (k : κ) (f : β → β) (rows : List (κ × β)) : List (κ × β) :=
  rows.map fun row => if row.1 = k then (row.1, f row.2) else row

/-! ## Lemmas -/

@[simp] theorem find?_nil (k : κ) : find? k ([] : List (κ × β)) = none := rfl

theorem find?_update (j k : κ) (f : Option β → β) (rows : List (κ × β)) :
    find? j (update k f rows) = if j = k then some (f (find? k rows)) else find? j rows := by
  induction rows with
  | nil =>
    by_cases h : j = k
    · simp [update, find?, h]
    · have : ¬k = j := fun e => h e.symm
      simp [update, find?, h, this]
  | cons row rows ih =>
    by_cases hk : row.1 = k
    · by_cases hj : j = k
      · subst hj; simp [update, find?, hk]
      · have hk' : ¬k = j := fun e => hj e.symm
        simp [update, find?, hk, hj, hk']
    · by_cases hj : j = k
      · subst hj; simp [update, find?, hk, ih]
      · simp [update, find?, hk, hj, ih]

theorem keys_update (k : κ) (f : Option β → β) (rows : List (κ × β)) :
    (update k f rows).map Prod.fst =
      if k ∈ rows.map Prod.fst then rows.map Prod.fst else rows.map Prod.fst ++ [k] := by
  induction rows with
  | nil => simp [update]
  | cons row rows ih =>
    by_cases hk : row.1 = k
    · simp [update, hk]
    · have hk' : ¬k = row.1 := fun e => hk e.symm
      simp only [update, hk, if_false, List.map_cons, ih, List.mem_cons, hk', false_or]
      split <;> simp

end RevenueDesk.Keyed
