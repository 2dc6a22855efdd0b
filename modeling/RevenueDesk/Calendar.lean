/-
# Months and quarters

Revenue is dated by day, but reported by month, by quarter of a year, and by quarter of the
year over all years.
-/

namespace RevenueDesk

structure Month where
  /-- The year, by the usual count; it may be zero or negative. -/
  year : Int
  /-- The month, from 1 to 12. -/
  number : Nat
deriving DecidableEq, Inhabited, Repr

structure Date where
  month : Month
  day : Nat
deriving DecidableEq, Inhabited, Repr

inductive Quarter where
  | q1
  | q2
  | q3
  | q4
deriving DecidableEq, Inhabited, Repr

/-- A quarter of a certain year. -/
structure CalendarQuarter where
  year : Int
  quarter : Quarter
deriving DecidableEq, Inhabited, Repr

namespace Quarter

def number : Quarter → Nat
  | q1 => 1
  | q2 => 2
  | q3 => 3
  | q4 => 4

/-- The quarter with a number from 1 to 4. -/
def ofNumber? : Nat → Option Quarter
  | 1 => some q1
  | 2 => some q2
  | 3 => some q3
  | 4 => some q4
  | _ => none

end Quarter

namespace Month

def quarter (m : Month) : Quarter :=
  if m.number ≤ 3 then .q1
  else if m.number ≤ 6 then .q2
  else if m.number ≤ 9 then .q3
  else .q4

/-- The quarter of its year that a month belongs to. -/
def calendarQuarter (m : Month) : CalendarQuarter := ⟨m.year, m.quarter⟩

/-- Chronological order. -/
def atMost (a b : Month) : Bool :=
  a.year < b.year || (a.year == b.year && a.number ≤ b.number)

/-- A numeral filled up with zeros to at least `width` digits. -/
def padded (width n : Nat) : String :=
  let ds := toString n
  String.ofList (List.replicate (width - ds.length) '0') ++ ds

/-- Year and month, such as `2025-03`.  A year has at least four digits, and a sign where
it is negative or has more. -/
def text (m : Month) : String :=
  let sign := if m.year < 0 then "-" else if 9999 < m.year then "+" else ""
  sign ++ padded 4 m.year.natAbs ++ "-" ++ padded 2 m.number

def label (m : Month) : String :=
  match m.number with
  | 1 => "Jan"
  | 2 => "Feb"
  | 3 => "Mar"
  | 4 => "Apr"
  | 5 => "May"
  | 6 => "Jun"
  | 7 => "Jul"
  | 8 => "Aug"
  | 9 => "Sep"
  | 10 => "Oct"
  | 11 => "Nov"
  | _ => "Dec"

end Month

namespace CalendarQuarter

def atMost (a b : CalendarQuarter) : Bool :=
  a.year < b.year || (a.year == b.year && a.quarter.number ≤ b.quarter.number)

end CalendarQuarter

end RevenueDesk
