/-
# The skills view

Which skills the revenue rests on.  A row counts for each of its skills, with its whole
revenue, so the total of the skills is at least the revenue of the rows that have any.
-/
import RevenueDesk.Dashboard.Executive

namespace RevenueDesk

structure PieSlice (α : Type) where
  name : String
  value : α
deriving Inhabited

structure HeatmapCell (α : Type) where
  skill : String
  /-- The revenue in percent of that of the leading skill. -/
  intensity : α
  revenue : α
deriving Inhabited

structure SkillsView (α : Type) where
  source : Source
  /-- The revenue of all skills together. -/
  skillAttributedRevenue : α
  topSkill : Option (TopEntry α)
  /-- The concentration index, from 0 to 100. -/
  skillDependency : Option α
  skills : List (Group α)
  pie : List (PieSlice α)
  heatmap : List (HeatmapCell α)
deriving Inhabited

namespace SkillsView

open Ledger Amount

def pieSlices : Nat := 6

def heatmapCells : Nat := 8

variable {α : Type} [Amount α]

def of (s : Snapshot α) : SkillsView α :=
  let skills := groupByEach s.rows Row.skill
  let whole := totalOf skills
  let leading := (skills.head?.map Group.revenue).getD zero
  { source := s.source
    skillAttributedRevenue := whole
    topSkill := skills.head?.map fun g => .of g.key g.revenue whole
    skillDependency := (concentration? skills).map (· * hundred)
    skills := skills
    pie := (skills.take pieSlices).map fun g => ⟨g.key, g.revenue⟩
    heatmap := (skills.take heatmapCells).map fun g =>
      ⟨g.key, sharePct g.revenue leading, g.revenue⟩ }

end SkillsView

end RevenueDesk
