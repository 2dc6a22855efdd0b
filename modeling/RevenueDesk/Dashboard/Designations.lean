/-
# The designations view

Revenue by role, with two averages: revenue per row over all roles, and the mean of the
roles' own averages, in which every role counts the same.
-/
import RevenueDesk.Dashboard.Executive

namespace RevenueDesk

structure DesignationEntry (α : Type) where
  designation : String
  revenue : α
  count : Nat
  /-- The revenue per row. -/
  avgRevenue : α
deriving Inhabited

structure DesignationsView (α : Type) where
  source : Source
  totalRevenue : α
  totalCount : Nat
  /-- The revenue per row, over all roles. -/
  avgRevenuePerRole : α
  topRole : Option (TopEntry α)
  /-- The mean of the averages of the roles. -/
  avgEfficiency : α
  designations : List (DesignationEntry α)
deriving Inhabited

namespace DesignationsView

open Ledger Amount

variable {α : Type} [Amount α]

def entry (g : Group α) : DesignationEntry α :=
  ⟨g.key, g.revenue, g.count, g.revenue / ofNat (max g.count 1)⟩

def of (s : Snapshot α) : DesignationsView α :=
  let groups := groupBy s.rows Row.designation
  let whole := totalOf groups
  let count := countOf groups
  let entries := groups.map entry
  { source := s.source
    totalRevenue := whole
    totalCount := count
    avgRevenuePerRole := if 0 < count then whole / ofNat count else zero
    topRole := groups.head?.map fun g => .of g.key g.revenue whole
    avgEfficiency :=
      if entries.isEmpty then zero
      else sum (entries.map DesignationEntry.avgRevenue) / ofNat entries.length
    designations := entries }

end DesignationsView

end RevenueDesk
