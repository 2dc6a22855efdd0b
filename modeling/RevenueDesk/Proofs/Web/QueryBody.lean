/-
# The parameters in the body of a query

Wherever the parameters stand in a body, among members that are passed over or as the item of an
array, they are read for what they denote: the whole numbers in a parameter fit 64 bits, signed or
unsigned (`inRange_ofBody`).
-/
import Mathlib
import RevenueDesk.Proofs.Json.InRange
import RevenueDesk.Proofs.Ledger.Collecting
import RevenueDesk.Web.Payload

namespace RevenueDesk.Web

open Text (Symbol)
open Json (InRange MembersInRange Reading)
open Outcome (bind_eq_ok_iff map_eq_ok_iff)

/-- If the field holds members, these are in range. -/
def FieldValue.Ranged (v : FieldValue) : Prop := ∀ ms, v = .members (some ms) → MembersInRange ms

/-- All fields that have been found are in range. -/
def Fields.Ranged (found : Fields) : Prop := ∀ f ∈ found, f.2.Ranged

section Reading

variable {fields : List Field} {found found' : Fields} {cs rest : List Symbol} {name : String}
  {v : FieldValue}

lemma Fields.Ranged.concat (h : Fields.Ranged found) (hv : v.Ranged) (name : String) :
    Fields.Ranged (found ++ [(name, v)]) :=
  List.forall_mem_append.mpr ⟨h, by simpa using hv⟩

lemma ranged_nil : Fields.Ranged [] := List.forall_mem_nil _

lemma membersInRange_membersValue {members : List (String × Json)}
    (h : membersValue cs = .ok (some members, rest)) : MembersInRange members := by
  unfold membersValue at h
  split at h
  · obtain ⟨_, -, ha⟩ := Option.map_eq_some_iff.mp (Json.orNotJson_ok h)
    exact absurd (Prod.mk.inj ha).1 (by simp)
  · split at h
    · obtain rfl := Option.some.inj (Prod.mk.inj (Except.ok.inj h)).1
      exact List.forall_mem_nil _
    · obtain ⟨⟨members', _⟩, hmembers, ha⟩ := map_eq_ok_iff.mp h
      obtain rfl := Option.some.inj (Prod.mk.inj ha).1
      exact Json.inRange_distinct
        ((Json.rangedWithin Json.ranged_full _).members _ _ _ _ _ (List.forall_mem_nil _) hmembers)
  · exact absurd h (by simp)

lemma ranged_fieldValue {type : FieldType} (h : fieldValue type cs = .ok (v, rest)) :
    v.Ranged := by
  rintro members rfl
  cases type with
  | text =>
    obtain ⟨_, -, ha⟩ := map_eq_ok_iff.mp h
    exact absurd (Prod.mk.inj ha).1 (by simp)
  | members =>
    obtain ⟨⟨members', _⟩, hmembers, ha⟩ := map_eq_ok_iff.mp h
    obtain rfl := FieldValue.members.inj (Prod.mk.inj ha).1
    exact membersInRange_membersValue hmembers

lemma complete_eq (h : complete fields found = .ok found') : found' = found := by
  unfold complete at h
  split at h
  · exact (Except.ok.inj h).symm
  · exact absurd h (by simp)

lemma ranged_complete (hfound : Fields.Ranged found)
    (h : (complete fields found).map (fun found => (found, rest)) = .ok (found', cs)) :
    Fields.Ranged found' := by
  obtain ⟨_, hcomplete, ha⟩ := map_eq_ok_iff.mp h
  rw [← (Prod.mk.inj ha).1, complete_eq hcomplete]
  exact hfound

/-! ## Members -/

lemma ranged_member {limit : ℕ} (hfound : Fields.Ranged found)
    (h : member limit fields found cs = .ok (found', rest)) : Fields.Ranged found' := by
  obtain ⟨⟨name, cs'⟩, -, h⟩ := bind_eq_ok_iff.mp h
  dsimp only at h
  split at h
  · split at h
    · exact absurd h (by simp)
    · obtain ⟨_, -, h⟩ := bind_eq_ok_iff.mp h
      obtain ⟨⟨v, _⟩, hv, h⟩ := bind_eq_ok_iff.mp h
      rw [← (Prod.mk.inj (Except.ok.inj h)).1]
      exact hfound.concat (ranged_fieldValue hv) name
  · obtain ⟨_, -, h⟩ := bind_eq_ok_iff.mp h
    split at h
    · rw [← (Prod.mk.inj (Except.ok.inj h)).1]
      exact hfound
    · exact absurd h (by simp)

lemma ranged_memberFields {limit steps : ℕ} (hfound : Fields.Ranged found)
    (h : memberFields limit fields steps found cs = .ok (found', rest)) :
    Fields.Ranged found' := by
  induction steps generalizing found cs with
  | zero => exact absurd h (by simp [memberFields])
  | succ steps ih =>
    rw [memberFields] at h
    split at h
    · split at h
      · exact absurd h (by simp)
      · rename_i hmember
        have hmember' := ranged_member hfound hmember
        split at h
        · exact ih hmember' h
        · exact ranged_complete hmember' h
        · exact absurd h (by simp)
    · exact absurd h (by simp)

/-! ## Items -/

lemma ranged_itemFields {first : Bool} (hfound : Fields.Ranged found)
    (h : itemFields first fields found cs = .ok (found', rest)) : Fields.Ranged found' := by
  induction fields generalizing first found cs with
  | nil =>
    rw [itemFields] at h
    split at h
    · rw [← (Prod.mk.inj (Except.ok.inj h)).1]
      exact hfound
    · exact absurd h (by simp)
  | cons f fields ih =>
    rw [itemFields] at h
    split at h
    · exact absurd h (by simp)
    · exact ranged_complete hfound h
    · split_ifs at h
      · split at h
        · exact absurd h (by simp)
        · exact absurd h (by simp)
        · split at h
          · exact absurd h (by simp)
          · rename_i hv
            exact ih (hfound.concat (ranged_fieldValue hv) f.name) h
      · split at h
        · exact absurd h (by simp)
        · rename_i hv
          exact ih (hfound.concat (ranged_fieldValue hv) f.name) h
    · exact absurd h (by simp)

/-! ## Bodies -/

lemma ranged_bodyFields (h : bodyFields fields cs = .ok (found, rest)) : Fields.Ranged found := by
  unfold bodyFields at h
  split at h
  · split at h
    · exact ranged_complete ranged_nil h
    · exact ranged_memberFields ranged_nil h
  · exact ranged_itemFields ranged_nil h
  · exact absurd h (by simp)

end Reading

/-- The whole numbers in a parameter fit 64 bits. -/
theorem inRange_ofBody {body : List UInt8} {p : QueryPayload} {name : String} {v : Json}
    (h : QueryPayload.ofBody body = .ok p)
    (hv : Keyed.find? name (p.parameters.getD []) = some v) : InRange v := by
  obtain ⟨found, hread, h⟩ := bind_eq_ok_iff.mp h
  obtain ⟨⟨found', rest⟩, hfields, hend⟩ := bind_eq_ok_iff.mp hread
  have hfound : Fields.Ranged found := by
    dsimp only at hend
    split_ifs at hend
    rw [← Except.ok.inj hend]
    exact ranged_bodyFields hfields
  have hparameters : p.parameters = found.members? "parameters" := by
    split at h
    · rw [← Except.ok.inj h]
    · exact absurd h (by simp)
  rw [hparameters, Fields.members?] at hv
  split at hv
  · rename_i members hfind
    cases members with
    | none => exact absurd hv (by simp)
    | some members =>
      exact hfound _ (Keyed.mem_of_find?_eq_some hfind) members rfl _
        (Keyed.mem_of_find?_eq_some hv)
  · exact absurd hv (by simp)

end RevenueDesk.Web
