/-
# Breakdowns in pieces

A breakdown starts with nothing in it.  From then on amounts are added to its five parts, and
other breakdowns are merged into it.  Read exactly, what comes of any number of such steps is
known without going through them one by one:

* `slot_run`, `total_run`: a part holds the amounts that were added to it and what the merged
  breakdowns have there, and the total is that of everything;
* `run_eq_of_perm`: the order of the steps does not show;
* `run_merged_chunks`: rows may be cut into chunks, and the breakdowns of the chunks merged in any
  order.

The groups of the ledger are such chunks (`quarters_of_mem_quarterlyBy`), so the managers view,
which merges their breakdowns, shows the breakdown of all rows (`quarterTotals_eq`).
-/
import Mathlib.Algebra.BigOperators.Ring.List
import RevenueDesk.Dashboard.Managers
import RevenueDesk.Proofs.Ledger.Regrouping

namespace RevenueDesk

open Ledger

variable {α : Type}

namespace Breakdown

/-- What is done to a breakdown. -/
inductive Step (α : Type) where
  /-- An amount is added to the part of a quarter, or to the part without a date. -/
  | add (quarter : Option Quarter) (amount : α)
  /-- Another breakdown is merged into it. -/
  | merge (other : Breakdown α)

namespace Step

/-- The amounts that are added, each with its quarter. -/
def amounts (steps : List (Step α)) : List (Option Quarter × α) :=
  steps.filterMap fun
    | add quarter amount => some (quarter, amount)
    | merge _ => none

/-- The breakdowns that are merged. -/
def breakdowns (steps : List (Step α)) : List (Breakdown α) :=
  steps.filterMap fun
    | add _ _ => none
    | merge other => some other

/-- What a step brings in. -/
def gained (figure : Breakdown α → α) (gain : Option Quarter → α → α) : Step α → α
  | add quarter amount => gain quarter amount
  | merge other => figure other

/-- The two kinds of steps may be taken apart. -/
lemma sum_gained [AddCommMonoid α] (figure : Breakdown α → α) (gain : Option Quarter → α → α)
    (steps : List (Step α)) : (steps.map (gained figure gain)).sum =
      ((amounts steps).map fun e => gain e.1 e.2).sum + ((breakdowns steps).map figure).sum := by
  induction steps with
  | nil => simp [amounts, breakdowns]
  | cons step steps ih =>
    rw [List.map_cons, List.sum_cons, ih]
    cases step with
    | add quarter amount => exact (add_assoc _ _ _).symm
    | merge other => exact add_left_comm _ _ _

variable [Amount α]

/-- The breakdown after a step. -/
def apply (b : Breakdown α) : Step α → Breakdown α
  | add quarter amount => b.add quarter amount
  | merge other => b.merge other

/-- What some steps make of nothing, from the first to the last. -/
def run (steps : List (Step α)) : Breakdown α := steps.foldl apply zero

end Step

/-- One of the five parts: that of a quarter, or the one without a date. -/
def slot (quarter : Option Quarter) (b : Breakdown α) : α :=
  match quarter with
  | some .q1 => b.q1
  | some .q2 => b.q2
  | some .q3 => b.q3
  | some .q4 => b.q4
  | none => b.undated

/-- A breakdown is told by its parts. -/
lemma eq_of_slot {a b : Breakdown α} (h : ∀ quarter, a.slot quarter = b.slot quarter) : a = b := by
  cases a
  cases b
  congr
  exacts [h (some .q1), h (some .q2), h (some .q3), h (some .q4), h none]

end Breakdown

section Rows

variable [Amount α]

/-- The quarter of the year that a row is booked in, if it has a date. -/
def Row.quarter? (row : Row α) : Option Quarter := row.month?.map Month.quarter

/-- The breakdown of rows, which are added one after the other. -/
def Breakdown.ofRows (rows : List (Row α)) : Breakdown α :=
  rows.foldl (fun b row => b.add row.quarter? row.amount) zero

end Rows

variable {K : Type} [Field K] [LinearOrder K]

namespace Breakdown

/-! ## Steps -/

lemma adds_slot (quarter : Option Quarter) :
    Adds (slot quarter : Breakdown K → K) fun own amount =>
      if own = quarter then amount else 0 := by
  cases quarter with
  | none =>
    have hslot : (slot none : Breakdown K → K) = undated := rfl
    rw [hslot]
    simpa only [Option.isNone_iff_eq_none] using (adds_undated : Adds (undated : Breakdown K → K) _)
  | some quarter =>
    have hslot : (slot (some quarter) : Breakdown K → K) = part quarter := by
      cases quarter <;> rfl
    rw [hslot]
    exact adds_part quarter

section Runs

variable {figure : Breakdown K → K} {gain : Option Quarter → K → K}

lemma Adds.figure_apply (h : Adds figure gain) (b : Breakdown K) (step : Step K) :
    figure (step.apply b) = figure b + step.gained figure gain := by
  cases step with
  | add quarter amount => exact h.add b quarter amount
  | merge other => exact h.merge b other

lemma Adds.figure_foldl (h : Adds figure gain) (steps : List (Step K)) (b : Breakdown K) :
    figure (steps.foldl Step.apply b) = figure b + (steps.map (Step.gained figure gain)).sum := by
  induction steps generalizing b with
  | nil => simp
  | cons step steps ih =>
    rw [List.foldl_cons, ih, h.figure_apply, List.map_cons, List.sum_cons, add_assoc]

/-- A run brings in what its steps do. -/
theorem Adds.figure_run (h : Adds figure gain) (steps : List (Step K)) :
    figure (Step.run steps) = (steps.map (Step.gained figure gain)).sum := by
  rw [Step.run, h.figure_foldl, h.zero, zero_add]

end Runs

/-- A part holds the amounts that were added to it, and what the merged breakdowns have in it. -/
theorem slot_run (steps : List (Step K)) (quarter : Option Quarter) :
    (Step.run steps).slot quarter =
      (((Step.amounts steps).filter fun e => e.1 = quarter).map Prod.snd).sum +
        ((Step.breakdowns steps).map (slot quarter)).sum := by
  have hown : ∀ es : List (Option Quarter × K),
      (es.map fun e => if e.1 = quarter then e.2 else 0).sum =
        ((es.filter fun e => e.1 = quarter).map Prod.snd).sum := by
    intro es
    rw [List.sum_map_ite, List.sum_map_zero, add_zero]
  rw [(adds_slot quarter).figure_run, Step.sum_gained, hown]

/-- The total is that of everything that was added or merged. -/
theorem total_run (steps : List (Step K)) : (Step.run steps).total =
    ((Step.amounts steps).map Prod.snd).sum + ((Step.breakdowns steps).map total).sum := by
  rw [adds_total.figure_run, Step.sum_gained]

/-- The order of the steps does not show. -/
theorem run_eq_of_perm {steps steps' : List (Step K)} (h : steps.Perm steps') :
    Step.run steps = Step.run steps' := by
  refine eq_of_slot fun quarter => ?_
  rw [(adds_slot quarter).figure_run, (adds_slot quarter).figure_run]
  exact (h.map _).sum_eq

/-! ## Rows -/

/-- A part of the breakdown of rows holds the rows that belong there. -/
theorem slot_ofRows (rows : List (Row K)) (quarter : Option Quarter) :
    (ofRows rows).slot quarter =
      ((rows.filter fun row => row.quarter? = quarter).map Row.amount).sum := by
  have hrun : ofRows rows = Step.run (rows.map fun row => .add row.quarter? row.amount) := by
    rw [ofRows, Step.run, List.foldl_map]
    rfl
  have hamounts : Step.amounts (rows.map fun row => .add row.quarter? row.amount) =
      rows.map fun row => (row.quarter?, row.amount) := by
    simp [Step.amounts, List.filterMap_map]
  have hbreakdowns : Step.breakdowns (rows.map fun row => .add row.quarter? row.amount) = [] := by
    simp [Step.breakdowns, List.filterMap_map]
  rw [hrun, slot_run, hamounts, hbreakdowns, List.map_nil, List.sum_nil, add_zero, List.filter_map,
    List.map_map]
  rfl

/-- The breakdowns of chunks of rows, merged in any order, are the breakdown of the rows. -/
theorem run_merged_chunks {rows : List (Row K)} {chunks : List (List (Row K))}
    {pieces : List (Breakdown K)} (hrows : chunks.flatten.Perm rows)
    (hpieces : pieces.Perm (chunks.map ofRows)) :
    Step.run (pieces.map .merge) = ofRows rows := by
  refine eq_of_slot fun quarter => ?_
  have hown : ((chunks.map ofRows).map (slot quarter)).sum =
      ((chunks.flatten.filter fun row => row.quarter? = quarter).map Row.amount).sum := by
    rw [List.filter_flatten, List.map_flatten, List.sum_flatten, List.map_map, List.map_map,
      List.map_map]
    exact congrArg List.sum (List.map_congr_left fun chunk _ => slot_ofRows chunk quarter)
  rw [(adds_slot quarter).figure_run, List.map_map, slot_ofRows]
  exact ((hpieces.map _).sum_eq.trans hown).trans ((hrows.filter _).map _).sum_eq

/-! ## The groups of the ledger -/

/-- Rows that are booked under one key leave their breakdown there. -/
lemma getD_foldl_enterQuarter [Amount α] (rows : List (Row α)) :
    (rows.foldl (fun held row => some (enterQuarter row held)) none).getD zero = ofRows rows := by
  induction rows using List.reverseRecOn with
  | nil => rfl
  | append_singleton rows row ih =>
    rw [List.foldl_append, List.foldl_cons, List.foldl_nil, Option.getD_some, enterQuarter, ih,
      ofRows, ofRows, List.foldl_append]
    rfl

/-- A group has the breakdown of its rows. -/
theorem quarters_of_mem_quarterlyBy {rows : List (Row K)} {field : Row K → Option String}
    {g : QuarterlyGroup K} (hg : g ∈ quarterlyBy rows field) :
    g.quarters = ofRows (rows.filter fun row => keyOf (field row) = g.key) := by
  rw [(quarterlyBy_perm rows field).mem_iff] at hg
  obtain ⟨⟨key, quarters⟩, hmem, rfl⟩ := List.mem_map.mp hg
  have hfind := (Keyed.mem_iff_find?_eq_some (Keyed.nodup_keys_collect rows)).mp hmem
  rw [Keyed.find?_collect] at hfind
  rw [← getD_foldl_enterQuarter, hfind]
  rfl

end Breakdown

/-- The managers view shows the breakdown of all rows. -/
theorem ManagersView.quarterTotals_eq (s : Snapshot K) :
    (ManagersView.of s).quarterTotals = Breakdown.ofRows s.rows := by
  have hmerged : (ManagersView.of s).quarterTotals = Breakdown.Step.run
      (((quarterlyBy s.rows Row.manager).map QuarterlyGroup.quarters).map .merge) := by
    rw [Breakdown.Step.run, List.foldl_map]
    rfl
  refine Breakdown.eq_of_slot fun quarter => ?_
  have hadds : Breakdown.Adds (Breakdown.slot quarter : Breakdown K → K) _ :=
    Breakdown.adds_slot quarter
  rw [hmerged, hadds.figure_run, List.map_map, Breakdown.slot_ofRows]
  refine (sum_share_quarterlyBy (addsShare_of_adds hadds) s.rows Row.manager).trans ?_
  rw [List.sum_map_ite, List.sum_map_zero, add_zero]
  rfl

/-! ## All of it -/

/-- What breakdowns are that are built up in steps, with figures read as exact numbers. -/
structure BuiltInPieces (K : Type) [Field K] [LinearOrder K] : Prop where
  /-- Each of the five parts has what was added to it, and what merged breakdowns have there. -/
  parts : ∀ (steps : List (Breakdown.Step K)) quarter,
    (Breakdown.Step.run steps).slot quarter =
      (((Breakdown.Step.amounts steps).filter fun e => e.1 = quarter).map Prod.snd).sum +
        ((Breakdown.Step.breakdowns steps).map (Breakdown.slot quarter)).sum
  /-- The total is that of everything that was added or merged. -/
  total : ∀ steps : List (Breakdown.Step K), (Breakdown.Step.run steps).total =
    ((Breakdown.Step.amounts steps).map Prod.snd).sum +
      ((Breakdown.Step.breakdowns steps).map Breakdown.total).sum
  /-- The order of the steps does not show. -/
  order : ∀ steps steps' : List (Breakdown.Step K), steps.Perm steps' →
    Breakdown.Step.run steps = Breakdown.Step.run steps'
  /-- A part of the breakdown of rows has the rows of its quarter. -/
  rows : ∀ (rows : List (Row K)) quarter, (Breakdown.ofRows rows).slot quarter =
    ((rows.filter fun row => row.quarter? = quarter).map Row.amount).sum
  /-- It is put together from the breakdowns of any chunks, in any order. -/
  chunks : ∀ (rows : List (Row K)) (chunks : List (List (Row K))) (pieces : List (Breakdown K)),
    chunks.flatten.Perm rows → pieces.Perm (chunks.map Breakdown.ofRows) →
      Breakdown.Step.run (pieces.map .merge) = Breakdown.ofRows rows
  /-- Groups are such chunks. -/
  groups : ∀ (rows : List (Row K)) field, ∀ g ∈ quarterlyBy rows field,
    g.quarters = Breakdown.ofRows (rows.filter fun row => keyOf (field row) = g.key)
  /-- The managers view merges them to the breakdown of all rows. -/
  quarterTotals : ∀ s : Snapshot K,
    (ManagersView.of s).quarterTotals = Breakdown.ofRows s.rows

/-- Breakdowns may be built up in pieces. -/
theorem builtInPieces : BuiltInPieces K where
  parts := Breakdown.slot_run
  total := Breakdown.total_run
  order _ _ := Breakdown.run_eq_of_perm
  rows := Breakdown.slot_ofRows
  chunks _ _ _ := Breakdown.run_merged_chunks
  groups _ _ _ := Breakdown.quarters_of_mem_quarterlyBy
  quarterTotals := ManagersView.quarterTotals_eq

end RevenueDesk
