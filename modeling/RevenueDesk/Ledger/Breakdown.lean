/-
# Breakdown by quarter of the year

Revenue split over the four quarters of the year, over all years, with a fifth part for
rows without a date.
-/
import RevenueDesk.Ledger.Group

namespace RevenueDesk

/-- Revenue by quarter of the year. -/
structure Breakdown (α : Type) where
  q1 : α
  q2 : α
  q3 : α
  q4 : α
  /-- The revenue without a date. -/
  undated : α
deriving Inhabited

namespace Breakdown

variable {α : Type} [Amount α]

def zero : Breakdown α := ⟨Amount.zero, Amount.zero, Amount.zero, Amount.zero, Amount.zero⟩

/-- Add an amount to the part of a quarter, or to the part without a date. -/
def add (b : Breakdown α) (quarter : Option Quarter) (amount : α) : Breakdown α :=
  match quarter with
  | some .q1 => { b with q1 := b.q1 + amount }
  | some .q2 => { b with q2 := b.q2 + amount }
  | some .q3 => { b with q3 := b.q3 + amount }
  | some .q4 => { b with q4 := b.q4 + amount }
  | none => { b with undated := b.undated + amount }

/-- Add every part of another breakdown. -/
def merge (a b : Breakdown α) : Breakdown α :=
  ⟨a.q1 + b.q1, a.q2 + b.q2, a.q3 + b.q3, a.q4 + b.q4, a.undated + b.undated⟩

/-- The revenue of all parts. -/
def total (b : Breakdown α) : α := b.q1 + b.q2 + b.q3 + b.q4 + b.undated

end Breakdown

/-- A key with the breakdown of its revenue. -/
structure QuarterlyGroup (α : Type) where
  key : String
  quarters : Breakdown α
  /-- The revenue of all quarters. -/
  revenue : α
deriving Inhabited

namespace Ledger

variable {α : Type} [Amount α]

/-- Book a row under the key that it has. -/
def bookQuarter (field : Row α → Option String) (t : List (String × Breakdown α))
    (row : Row α) : List (String × Breakdown α) :=
  Keyed.update (keyOf (field row)) (fun held =>
    (held.getD .zero).add (row.month?.map Month.quarter) row.amount) t

/-- The ranked groups of rows under a field, with their breakdowns. -/
def quarterlyBy (rows : List (Row α)) (field : Row α → Option String) :
    List (QuarterlyGroup α) :=
  rankBy (fun g => (g.key, g.revenue))
    ((rows.foldl (bookQuarter field) []).map fun (key, quarters) =>
      ⟨key, quarters, quarters.total⟩)

end Ledger

end RevenueDesk
