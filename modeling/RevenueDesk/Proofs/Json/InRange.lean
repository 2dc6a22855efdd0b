/-
# Whole numbers that are read

Whatever is read, the whole numbers in it fit 64 bits, signed or unsigned (`InRange`); numerals
beyond are read as doubles.  One step of a reader keeps them in range, and so does any number of
steps (`rangedWithin`), also where embedded texts are read for what they denote (`ranged_full`).
-/
import Mathlib
import RevenueDesk.Json.Reader
import RevenueDesk.Proofs.Outcome

namespace RevenueDesk.Json

open Text (Symbol)
open JsonNumber (leastWhole largestWhole)
open Outcome (map_eq_ok_iff)

/-- All whole numbers in a value fit 64 bits, signed or unsigned. -/
inductive InRange : Json → Prop where
  | null : InRange .null
  | bool (b : Bool) : InRange (.bool b)
  | whole (n : ℤ) (h : n ∈ Set.Icc leastWhole largestWhole) : InRange (.number (.whole n))
  | real (x : Binary64) : InRange (.number (.real x))
  | string (s : String) : InRange (.string s)
  | array (items : List Json) (h : ∀ v ∈ items, InRange v) : InRange (.array items)
  | object (members : List (String × Json)) (h : ∀ m ∈ members, InRange m.2) :
      InRange (.object members)

/-- The values of all members are in range. -/
def MembersInRange (members : List (String × Json)) : Prop := ∀ m ∈ members, InRange m.2

/-- A manner of reading in which numerals and embedded texts are in range. -/
structure Manner.Ranged (manner : Manner) : Prop where
  number : ∀ numeral n, manner.number numeral = some n → InRange (.number n)
  inner : ∀ inner, manner.inner? = some inner → ∀ text v, inner text = some v → InRange v

/-! ## Numerals -/

lemma whole?_mem_Icc {numeral : Numeral} {n : ℤ} (h : numeral.whole? = some n) :
    n ∈ Set.Icc leastWhole largestWhole := by
  have hleast : leastWhole < 0 := by decide
  have hlargest : 0 < largestWhole := by decide
  unfold Numeral.whole? at h
  dsimp only at h
  split_ifs at h with hplain hnegative hrange hrange
  · obtain rfl := Option.some.inj h
    exact ⟨hrange.2, by omega⟩
  · obtain rfl := Option.some.inj h
    exact ⟨by omega, hrange⟩

lemma inRange_number? {numeral : Numeral} {n : JsonNumber} (h : numeral.number? = some n) :
    InRange (.number n) := by
  unfold Numeral.number? at h
  split at h
  · rename_i k hk
    obtain rfl := Option.some.inj h
    exact .whole k (whole?_mem_Icc hk)
  · obtain ⟨x, -, rfl⟩ := Option.map_eq_some_iff.mp h
    exact .real _

/-! ## Members -/

section Members

variable {members : List (String × Json)} {v : Json}

lemma inRange_put {name : String} (hv : InRange v) (h : MembersInRange members) :
    MembersInRange (put members name v) := by
  induction members with
  | nil => simpa [put, Keyed.update, MembersInRange] using hv
  | cons m members ih =>
    obtain ⟨hm, hrest⟩ := List.forall_mem_cons.mp h
    rw [put, Keyed.update]
    split
    · exact List.forall_mem_cons.mpr ⟨hv, hrest⟩
    · exact List.forall_mem_cons.mpr ⟨hm, ih hrest⟩

/-- Leaving out repeats takes no value from elsewhere. -/
lemma inRange_distinct (h : MembersInRange members) : MembersInRange (distinct members) :=
  List.foldlRecOn members _ (List.forall_mem_nil _) fun _ hms m hm => inRange_put (h m hm) hms

lemma inRange_object {manner : Manner} (h : MembersInRange members) :
    InRange (manner.object members) := by
  unfold Manner.object
  split
  · exact .object _ h
  · exact .object _ (inRange_distinct h)

end Members

/-! ## Values -/

section Values

variable {manner : Manner} {steps depth : ℕ} {cs rest : List Symbol} {v : Json}

lemma orNotJson_ok {α : Type} {r : Option (α × List Symbol)} {a : α × List Symbol}
    (h : orNotJson r = .ok a) : r = some a := by
  cases r with
  | none => exact absurd h (by simp [orNotJson])
  | some b => exact congrArg some (Except.ok.inj h)

/-- What an embedded text denotes is all that is read of its object. -/
lemma inner_of_embedded {inner : String → Option Json} (h : embedded inner cs = .ok (v, rest)) :
    ∃ text, inner text = some v := by
  unfold embedded at h
  split at h
  · exact absurd h (by simp)
  · rename_i text _ _
    split at h
    · exact absurd h (by simp)
    · rename_i w hw
      split at h
      · exact ⟨text, by rw [hw]; simpa using congrArg Prod.fst (Except.ok.inj h)⟩
      · exact absurd h (by simp)

lemma inner?_of_embedded? {inner : String → Option Json} {cs' : List Symbol}
    (h : manner.embedded? cs = some (inner, cs')) : manner.inner? = some inner := by
  unfold Manner.embedded? at h
  split at h
  · exact absurd h (by simp)
  · rename_i inner' hinner
    obtain ⟨_, -, ha⟩ := Option.map_eq_some_iff.mp h
    rw [hinner, (Prod.mk.inj ha).1]

lemma number_of_number? {n : JsonNumber} (h : manner.number? cs = some (n, rest)) :
    ∃ numeral, manner.number numeral = some n := by
  simp only [Manner.number?, Option.bind_eq_bind, Option.bind_eq_some_iff] at h
  obtain ⟨⟨numeral, _⟩, -, _, hn, hsome⟩ := h
  obtain rfl := (Prod.mk.inj (Option.some.inj hsome)).1
  exact ⟨numeral, hn⟩

/-- What is read in so many steps is in range: values, items and members. -/
structure RangedWithin (manner : Manner) (steps : ℕ) : Prop where
  value : ∀ depth cs v rest, value manner steps depth cs = .ok (v, rest) → InRange v
  items : ∀ depth acc cs items rest, (∀ v ∈ acc, InRange v) →
    itemList manner steps depth acc cs = .ok (items, rest) → ∀ v ∈ items, InRange v
  members : ∀ depth acc cs members rest, MembersInRange acc →
    memberList manner steps depth acc cs = .ok (members, rest) → MembersInRange members

lemma RangedWithin.value_succ (hm : manner.Ranged) (hsteps : RangedWithin manner steps)
    (h : Json.value manner (steps + 1) depth cs = .ok (v, rest)) : InRange v := by
  have hpart {α : Type} {o : Option α} {f : α → Json × List Symbol}
      (h : orNotJson (o.map f) = .ok (v, rest)) : ∃ a, o = some a ∧ (f a).1 = v := by
    obtain ⟨a, ha, hf⟩ := Option.map_eq_some_iff.mp (orNotJson_ok h)
    exact ⟨a, ha, by rw [hf]⟩
  have hparts {α : Type} {x : Reading α} {f : α × List Symbol → Json × List Symbol}
      (h : x.map f = .ok (v, rest)) : ∃ a, x = .ok a ∧ (f a).1 = v := by
    obtain ⟨a, ha, hf⟩ := map_eq_ok_iff.mp h
    exact ⟨a, ha, by rw [hf]⟩
  rw [Json.value] at h
  split at h
  · obtain ⟨-, -, rfl⟩ := hpart h
    exact .null
  · obtain ⟨-, -, rfl⟩ := hpart h
    exact .bool true
  · obtain ⟨-, -, rfl⟩ := hpart h
    exact .bool false
  · obtain ⟨⟨s, _⟩, -, rfl⟩ := hpart h
    exact .string s
  -- an array
  · split at h
    · exact absurd h (by simp)
    · split at h
      · obtain rfl := (Prod.mk.inj (Except.ok.inj h)).1
        exact .array [] (List.forall_mem_nil _)
      · obtain ⟨⟨items, _⟩, hitems, rfl⟩ := hparts h
        exact .array items (hsteps.items _ _ _ _ _ (List.forall_mem_nil _) hitems)
  -- an object, or an embedded text
  · split at h
    · exact absurd h (by simp)
    · split at h
      · obtain rfl := (Prod.mk.inj (Except.ok.inj h)).1
        exact .object [] (List.forall_mem_nil _)
      · split at h
        · rename_i inner _ hembedded
          obtain ⟨text, htext⟩ := inner_of_embedded h
          exact hm.inner inner (inner?_of_embedded? hembedded) text v htext
        · obtain ⟨⟨members, _⟩, hmembers, rfl⟩ := hparts h
          exact inRange_object (hsteps.members _ _ _ _ _ (List.forall_mem_nil _) hmembers)
  · obtain ⟨⟨n, _⟩, hn, rfl⟩ := hpart h
    obtain ⟨numeral, hnumeral⟩ := number_of_number? hn
    exact hm.number numeral n hnumeral

lemma RangedWithin.items_succ (hsteps : RangedWithin manner steps) {acc items : List Json}
    (hacc : ∀ v ∈ acc, InRange v)
    (h : itemList manner (steps + 1) depth acc cs = .ok (items, rest)) :
    ∀ v ∈ items, InRange v := by
  rw [itemList] at h
  split at h
  · exact absurd h (by simp)
  · rename_i v _ hv
    have hcons : ∀ w ∈ v :: acc, InRange w :=
      List.forall_mem_cons.mpr ⟨hsteps.value _ _ _ _ hv, hacc⟩
    split at h
    · exact hsteps.items _ _ _ _ _ hcons h
    · obtain rfl := (Prod.mk.inj (Except.ok.inj h)).1
      exact fun w hw => hcons w (List.mem_reverse.mp hw)
    · exact absurd h (by simp)

lemma RangedWithin.members_succ (hsteps : RangedWithin manner steps)
    {acc members : List (String × Json)} (hacc : MembersInRange acc)
    (h : memberList manner (steps + 1) depth acc cs = .ok (members, rest)) :
    MembersInRange members := by
  rw [memberList] at h
  split at h
  · split at h
    · exact absurd h (by simp)
    · rename_i name _ _
      split at h
      · split at h
        · exact absurd h (by simp)
        · rename_i v _ hv
          have hcons : MembersInRange ((name, v) :: acc) :=
            List.forall_mem_cons.mpr ⟨hsteps.value _ _ _ _ hv, hacc⟩
          split at h
          · exact hsteps.members _ _ _ _ _ hcons h
          · obtain rfl := (Prod.mk.inj (Except.ok.inj h)).1
            exact fun m hm => hcons m (List.mem_reverse.mp hm)
          · exact absurd h (by simp)
      · exact absurd h (by simp)
  · exact absurd h (by simp)

/-- Every step of a reader keeps the numbers in range, so all of them do. -/
theorem rangedWithin (hm : manner.Ranged) (steps : ℕ) : RangedWithin manner steps := by
  induction steps with
  | zero => exact ⟨by simp [value], by simp [itemList], by simp [memberList]⟩
  | succ steps ih =>
    exact ⟨fun _ _ _ _ => ih.value_succ hm, fun _ _ _ _ _ => ih.items_succ,
      fun _ _ _ _ _ => ih.members_succ⟩

end Values

/-! ## Texts -/

lemma inRange_read? {manner : Manner} (hm : manner.Ranged) {text : String} {v : Json}
    (h : read? manner text = some v) : InRange v := by
  unfold read? whole? at h
  dsimp only at h
  split at h
  · rename_i hvalue
    split_ifs at h
    obtain rfl := Option.some.inj h
    exact (rangedWithin hm _).value _ _ _ _ hvalue
  · exact absurd h (by simp)

lemma inRange_parseWithin? {levels : ℕ} {text : String} {v : Json}
    (h : parseWithin? levels text = some v) : InRange v := by
  induction levels generalizing text v with
  | zero => exact absurd h (by simp [parseWithin?])
  | succ levels ih =>
    refine inRange_read? ⟨fun _ _ => inRange_number?, ?_⟩ h
    intro inner hinner text v hv
    obtain rfl := Option.some.inj hinner
    exact ih hv

/-- Whole numbers are in range in the values that texts denote. -/
theorem ranged_full : Manner.full.Ranged where
  number _ _ := inRange_number?
  inner := by
    intro inner hinner text v hv
    obtain rfl := Option.some.inj hinner
    exact inRange_parseWithin? hv

end RevenueDesk.Json
