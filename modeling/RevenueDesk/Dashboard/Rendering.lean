/-
# The views as JSON

The views, and the figures that they are made of, as the values that clients receive.
-/
import RevenueDesk.Dashboard.Designations
import RevenueDesk.Dashboard.Managers
import RevenueDesk.Dashboard.Skills
import RevenueDesk.Dashboard.Trend
import RevenueDesk.Json.Value

namespace RevenueDesk

open Json (ofNat ofBinary64 ofOption ofList)

def Source.toJson (s : Source) : Json :=
  .object [("rowCount", ofNat s.rowCount), ("degraded", .bool s.degraded)]

def Group.toJson (g : Group Binary64) : Json :=
  .object [("key", .string g.key), ("revenue", ofBinary64 g.revenue), ("count", ofNat g.count)]

def Ledger.ParetoPoint.toJson (p : Ledger.ParetoPoint Binary64) : Json :=
  .object
    [("key", .string p.key), ("revenue", ofBinary64 p.revenue),
      ("cumulative", ofBinary64 p.cumulative), ("cumulativePct", ofBinary64 p.cumulativePct)]

def TopEntry.toJson (t : TopEntry Binary64) : Json :=
  .object
    [("name", .string t.name), ("revenue", ofBinary64 t.revenue),
      ("sharePct", ofBinary64 t.sharePct)]

def ClientEntry.toJson (c : ClientEntry Binary64) : Json :=
  .object
    [("name", .string c.name), ("fullName", .string c.fullName),
      ("revenue", ofBinary64 c.revenue), ("count", ofNat c.count)]

def ExecutiveView.toJson (v : ExecutiveView Binary64) : Json :=
  .object
    [("source", v.source.toJson),
      ("totalRevenue", ofBinary64 v.totalRevenue),
      ("clientCount", ofNat v.clientCount),
      ("avgRevenuePerClient", ofBinary64 v.avgRevenuePerClient),
      ("topClient", ofOption TopEntry.toJson v.topClient),
      ("top5SharePct", ofBinary64 v.top5SharePct),
      ("concentrationHhi", ofOption ofBinary64 v.concentrationHhi),
      ("longTailSharePct", ofBinary64 v.longTailSharePct),
      ("clients", ofList ClientEntry.toJson v.clients),
      ("pareto", ofList Ledger.ParetoPoint.toJson v.pareto)]

def PieSlice.toJson (p : PieSlice Binary64) : Json :=
  .object [("name", .string p.name), ("value", ofBinary64 p.value)]

def HeatmapCell.toJson (c : HeatmapCell Binary64) : Json :=
  .object
    [("skill", .string c.skill), ("intensity", ofBinary64 c.intensity),
      ("revenue", ofBinary64 c.revenue)]

def SkillsView.toJson (v : SkillsView Binary64) : Json :=
  .object
    [("source", v.source.toJson),
      ("skillAttributedRevenue", ofBinary64 v.skillAttributedRevenue),
      ("topSkill", ofOption TopEntry.toJson v.topSkill),
      ("skillDependency", ofOption ofBinary64 v.skillDependency),
      ("skills", ofList Group.toJson v.skills),
      ("pie", ofList PieSlice.toJson v.pie),
      ("heatmap", ofList HeatmapCell.toJson v.heatmap)]

def DesignationEntry.toJson (d : DesignationEntry Binary64) : Json :=
  .object
    [("designation", .string d.designation), ("revenue", ofBinary64 d.revenue),
      ("count", ofNat d.count), ("avgRevenue", ofBinary64 d.avgRevenue)]

def DesignationsView.toJson (v : DesignationsView Binary64) : Json :=
  .object
    [("source", v.source.toJson),
      ("totalRevenue", ofBinary64 v.totalRevenue),
      ("totalCount", ofNat v.totalCount),
      ("avgRevenuePerRole", ofBinary64 v.avgRevenuePerRole),
      ("topRole", ofOption TopEntry.toJson v.topRole),
      ("avgEfficiency", ofBinary64 v.avgEfficiency),
      ("designations", ofList DesignationEntry.toJson v.designations)]

def MonthEntry.toJson (m : MonthEntry Binary64) : Json :=
  .object
    [("month", .string m.month.text), ("label", .string m.month.label),
      ("revenue", ofBinary64 m.revenue), ("growth", ofOption ofBinary64 m.growth)]

def TrendView.toJson (v : TrendView Binary64) : Json :=
  .object
    [("source", v.source.toJson),
      ("latestMonth", ofOption MonthEntry.toJson v.latestMonth),
      ("momGrowth", ofOption ofBinary64 v.momGrowth),
      ("bestMonth", ofOption MonthEntry.toJson v.bestMonth),
      ("volatilityPct", ofBinary64 v.volatilityPct),
      ("months", ofList MonthEntry.toJson v.months)]

def Breakdown.toJson (b : Breakdown Binary64) : Json :=
  .object
    [("q1", ofBinary64 b.q1), ("q2", ofBinary64 b.q2), ("q3", ofBinary64 b.q3),
      ("q4", ofBinary64 b.q4), ("undated", ofBinary64 b.undated)]

def QuarterlyGroup.toJson (g : QuarterlyGroup Binary64) : Json :=
  .object
    [("manager", .string g.key), ("quarters", g.quarters.toJson),
      ("revenue", ofBinary64 g.revenue)]

def ManagersView.toJson (v : ManagersView Binary64) : Json :=
  .object
    [("source", v.source.toJson),
      ("quarterTotals", v.quarterTotals.toJson),
      ("qoqGrowth", ofOption ofBinary64 v.qoqGrowth),
      ("topManager", ofOption TopEntry.toJson v.topManager),
      ("stabilityScore", ofBinary64 v.stabilityScore),
      ("managers", ofList QuarterlyGroup.toJson v.managers)]

end RevenueDesk
