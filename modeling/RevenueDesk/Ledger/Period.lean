/-
# Revenue over time

Revenue by month and by quarter of a year, in chronological order.  Rows without a date
are in none of them.
-/
import RevenueDesk.Keyed
import RevenueDesk.Ledger.Measure

namespace RevenueDesk

/-- A month, its revenue, and the growth over the month before it in the list. -/
structure MonthEntry (α : Type) where
  month : Month
  revenue : α
  /-- The change in percent, if there is a month before it to compare with. -/
  growth : Option α
deriving Inhabited

namespace Ledger

variable {α : Type} [Amount α]

/-- Add the revenue of a row to the period that it falls in. -/
def bookPeriod {κ : Type} [DecidableEq κ] (period : Month → κ) (t : List (κ × α))
    (row : Row α) : List (κ × α) :=
  match row.month? with
  | none => t
  | some m =>
    Keyed.update (period m) (fun held => held.getD Amount.zero + row.amount) t

/-- The revenue of every month that has rows, in chronological order. -/
def monthlyTotals (rows : List (Row α)) : List (Month × α) :=
  (rows.foldl (bookPeriod id) []).mergeSort fun a b => Month.atMost a.1 b.1

/-- The revenue of every quarter of a year that has rows, in chronological order. -/
def calendarQuarters (rows : List (Row α)) : List (CalendarQuarter × α) :=
  (rows.foldl (bookPeriod Month.calendarQuarter) []).mergeSort fun a b =>
    CalendarQuarter.atMost a.1 b.1

/-- The entries of months that follow one with the revenue `before`, if there is one. -/
def monthEntriesFrom (before : Option α) : List (Month × α) → List (MonthEntry α)
  | [] => []
  | (month, revenue) :: rest =>
    ⟨month, revenue, before.bind (growthPct? revenue)⟩ :: monthEntriesFrom (some revenue) rest

/-- Every month with its growth over the one before it in the list. -/
def monthOverMonth (monthly : List (Month × α)) : List (MonthEntry α) :=
  monthEntriesFrom none monthly

/-- The growth of the last quarter over the one before it in the list. -/
def quarterOverQuarter? (quarters : List (CalendarQuarter × α)) : Option α :=
  match quarters.reverse with
  | latest :: previous :: _ => growthPct? latest.2 previous.2
  | _ => none

end Ledger

end RevenueDesk
