/-
# Revenue rows

One row of the revenue table.  Every field may be missing, because the sheets that the
table is filled from have holes.  A *snapshot* is the list of rows that one request works
on, or the empty list if they could not be loaded.
-/
import RevenueDesk.Amount
import RevenueDesk.Calendar

namespace RevenueDesk

structure Row (α : Type) where
  customer : Option String
  /-- The role that was billed. -/
  designation : Option String
  /-- The skills, with commas between them. -/
  skill : Option String
  /-- The project manager. -/
  manager : Option String
  /-- The day that the revenue is booked on. -/
  month : Option Date
  revenue : Option α
deriving Inhabited

/-- The rows of one request. -/
structure Snapshot (α : Type) where
  /-- The rows, in the order of the table. -/
  rows : List (Row α)
  /-- The rows could not be loaded. -/
  degraded : Bool
deriving Inhabited

/-- Where the figures of a view come from. -/
structure Source where
  rowCount : Nat
  degraded : Bool
deriving DecidableEq, Inhabited, Repr

variable {α : Type} [Amount α]

/-- The usable revenue of a row: zero if it is missing, infinite or undefined. -/
def Row.amount (row : Row α) : α :=
  match row.revenue with
  | some v => if Amount.isFinite v then v else Amount.zero
  | none => Amount.zero

def Row.month? (row : Row α) : Option Month := row.month.map Date.month

namespace Snapshot

/-- The rows, or the degraded snapshot if loading them failed. -/
def ofLoad (rows? : Option (List (Row α))) : Snapshot α :=
  match rows? with
  | some rows => ⟨rows, false⟩
  | none => ⟨[], true⟩

def source (s : Snapshot α) : Source := ⟨s.rows.length, s.degraded⟩

def totalRevenue (s : Snapshot α) : α := Amount.sum (s.rows.map Row.amount)

end Snapshot

end RevenueDesk
