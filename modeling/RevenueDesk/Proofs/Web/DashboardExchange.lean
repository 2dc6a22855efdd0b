/-
# What becomes of a request for a view

A request for a view of the revenue table never fails.  It loads the table once; if the rows
come, the view is that of exactly these rows, and if they do not, for whatever reason, it is
the view of an empty table that says so.

* `DashboardExchange` says what the exchange looks like, for each of the five views, and
  `Panel.blank` what the view of an empty table shows;
* `answer_dashboard`: every request for a view is answered in this way, whatever the
  database does.
-/
import Mathlib.Tactic.Common
import RevenueDesk.Proofs.Dashboard.NoRows
import RevenueDesk.Proofs.Database.Script
import RevenueDesk.Proofs.Web.Answering

namespace RevenueDesk.Web

open Database (Statement Server)

/-! ## The five views -/

/-- The views of the revenue table. -/
inductive Panel where
  | executive
  | skills
  | designations
  | time
  | managers
deriving DecidableEq, Repr

namespace Panel

/-- Where a view is. -/
def path : Panel → String
  | executive => "/api/dashboard/executive"
  | skills => "/api/dashboard/skills"
  | designations => "/api/dashboard/designations"
  | time => "/api/dashboard/time"
  | managers => "/api/dashboard/managers"

/-- A view of a snapshot, as JSON. -/
def view (p : Panel) (s : Snapshot Binary64) : Json :=
  match p with
  | executive => (ExecutiveView.of s).toJson
  | skills => (SkillsView.of s).toJson
  | designations => (DesignationsView.of s).toJson
  | time => (TrendView.of s).toJson
  | managers => (ManagersView.of s).toJson

/-- A double that is zero, as JSON. -/
def noShare : Json := .number (.real .zero)

/-- What a view shows of no rows, behind the source of its figures: no count, sum or share
but zero, nothing that may be missing, and no item in a list. -/
def blank : Panel → List (String × Json)
  | executive =>
    [("totalRevenue", .number (.real .negZero)), ("clientCount", .ofNat 0),
      ("avgRevenuePerClient", noShare), ("topClient", .null), ("top5SharePct", noShare),
      ("concentrationHhi", .null), ("longTailSharePct", noShare), ("clients", .array []),
      ("pareto", .array [])]
  | skills =>
    [("skillAttributedRevenue", noShare), ("topSkill", .null), ("skillDependency", .null),
      ("skills", .array []), ("pie", .array []), ("heatmap", .array [])]
  | designations =>
    [("totalRevenue", noShare), ("totalCount", .ofNat 0), ("avgRevenuePerRole", noShare),
      ("topRole", .null), ("avgEfficiency", noShare), ("designations", .array [])]
  | time =>
    [("latestMonth", .null), ("momGrowth", .null), ("bestMonth", .null),
      ("volatilityPct", noShare), ("months", .array [])]
  | managers =>
    [("quarterTotals", .object
        [("q1", noShare), ("q2", noShare), ("q3", noShare), ("q4", noShare),
          ("undated", noShare)]),
      ("qoqGrowth", .null), ("topManager", .null), ("stabilityScore", noShare),
      ("managers", .array [])]

/-- The source of the figures of a view, as it is shown in front of them. -/
def sourceMember (rowCount : Nat) (degraded : Bool) : String × Json :=
  ("source", .object [("rowCount", .ofNat rowCount), ("degraded", .bool degraded)])

/-- A view begins with the number of its rows and whether they could be loaded. -/
lemma view_eq_object (p : Panel) (s : Snapshot Binary64) :
    ∃ figures, p.view s = .object (sourceMember s.rows.length s.degraded :: figures) := by
  cases p <;> exact ⟨_, rfl⟩

lemma ofBinary64_zero : Json.ofBinary64 .zero = noShare := by
  have hfinite : Binary64.zero.isFinite = true := by decide
  simp [Json.ofBinary64, hfinite, noShare]

lemma ofBinary64_negZero : Json.ofBinary64 .negZero = .number (.real .negZero) := by
  have hfinite : Binary64.negZero.isFinite = true := by decide
  simp [Json.ofBinary64, hfinite]

/-- The view of an empty table. -/
lemma view_nil (p : Panel) (degraded : Bool) :
    p.view ⟨[], degraded⟩ = .object (sourceMember 0 degraded :: p.blank) := by
  cases p with
  | executive =>
    simp [view, blank, ExecutiveView.of_nil, ExecutiveView.toJson, ofBinary64_zero,
      ofBinary64_negZero, sourceMember, Source.toJson, Json.ofOption, Json.ofList]
  | skills =>
    simp [view, blank, SkillsView.of_nil, SkillsView.toJson, ofBinary64_zero, sourceMember,
      Source.toJson, Json.ofOption, Json.ofList]
  | designations =>
    simp [view, blank, DesignationsView.of_nil, DesignationsView.toJson, ofBinary64_zero,
      sourceMember, Source.toJson, Json.ofOption, Json.ofList]
  | time =>
    simp [view, blank, TrendView.of_nil, TrendView.toJson, ofBinary64_zero, sourceMember,
      Source.toJson, Json.ofOption, Json.ofList]
  | managers =>
    simp [view, blank, ManagersView.of_nil, ManagersView.toJson, ofBinary64_zero, sourceMember,
      Source.toJson, Json.ofOption, Json.ofList, Breakdown.toJson]

/-- The path of a view leads to it. -/
lemma route_path (p : Panel) : Route.of? p.path = some (.get (·.dashboard p.view)) := by
  cases p <;> rfl

end Panel

/-! ## The exchange -/

/-- The request asks for a view; what else it says does not matter. -/
structure Opens (r : Request) (p : Panel) : Prop where
  method_eq : r.method = "GET"
  route_eq : r.route = p.path

/-- What becomes of a request for a view. -/
structure DashboardExchange (desk : Desk) (p : Panel) (e : Exchange) : Prop where
  /-- It never fails. -/
  status_eq : e.response.status = 200
  /-- The rows are asked for once and nothing else is sent. -/
  statements_prefix : e.statements <+: [.revenue]
  asked_eq : e.asked = []
  /-- The view of exactly the rows that were loaded, with their number. -/
  loaded : desk.database.Takes .revenue →
    e.response.content = .json (p.view ⟨desk.database.revenue, false⟩) ∧
      ∃ figures, e.response.content =
        .json (.object (Panel.sourceMember desk.database.revenue.length false :: figures))
  /-- If they could not be loaded, the view of an empty table; it does not show why. -/
  degraded : ¬ desk.database.Takes .revenue →
    e.response.content = .json (p.view ⟨[], true⟩) ∧
      e.response.content = .json (.object (Panel.sourceMember 0 true :: p.blank))

section Answering

variable (desk : Desk) {r : Request} {p : Panel}

/-- A request for a view is answered by the view. -/
lemma answer_of_opens (h : Opens r p) :
    desk.answer r = (desk.dashboard p.view).shared := by
  have hroute : Route.of? r.route = some (.get (·.dashboard p.view)) := by
    rw [h.route_eq, p.route_path]
  exact desk.answer_get hroute h.method_eq

lemma loadRevenue_of_takes {db : Server} (h : db.Takes .revenue) :
    (Database.loadRevenue db).result? = some db.revenue := by
  simp [Database.loadRevenue, Database.send_of_takes h, Database.Run.andThen,
    Database.Run.done, Database.Run.result?]

lemma loadRevenue_of_not_takes {db : Server} (h : ¬ db.Takes .revenue) :
    (Database.loadRevenue db).result? = none := by
  rcases Database.send_of_not_takes h with hs | hs <;>
    simp [Database.loadRevenue, hs, Database.Run.andThen, Database.Run.fail,
      Database.Run.result?]

/-- Loading the table follows the script of its one statement. -/
lemma loadRevenue_follows {db : Server} :
    (Database.loadRevenue db).Follows db [.revenue] :=
  (Database.send_follows .revenue).andThen fun _ _ => Database.Run.follows_done db.revenue

/-- The view of what could be loaded. -/
lemma dashboard_exchange (p : Panel) : DashboardExchange desk p (desk.dashboard p.view) where
  status_eq := rfl
  statements_prefix := loadRevenue_follows.in_order
  asked_eq := rfl
  loaded := by
    intro htakes
    have hcontent : (desk.dashboard p.view).response.content =
        .json (p.view ⟨desk.database.revenue, false⟩) := by
      simp [Desk.dashboard, loadRevenue_of_takes htakes, Snapshot.ofLoad, Response.json]
    obtain ⟨figures, hview⟩ := p.view_eq_object ⟨desk.database.revenue, false⟩
    exact ⟨hcontent, figures, by rw [hcontent, hview]⟩
  degraded := by
    intro hfails
    have hcontent : (desk.dashboard p.view).response.content = .json (p.view ⟨[], true⟩) := by
      simp [Desk.dashboard, loadRevenue_of_not_takes hfails, Snapshot.ofLoad, Response.json]
    exact ⟨hcontent, by rw [hcontent, p.view_nil]⟩

end Answering

/-- A request for a view succeeds whatever the database does, and shows either all of the
rows or an empty table that says that they could not be loaded. -/
theorem answer_dashboard (desk : Desk) {r : Request} {p : Panel} (h : Opens r p) :
    DashboardExchange desk p (desk.answer r) := by
  have hview := dashboard_exchange desk p
  rw [answer_of_opens desk h]
  -- what other origins may read changes neither the status nor the content
  exact ⟨hview.status_eq, hview.statements_prefix, hview.asked_eq, hview.loaded,
    hview.degraded⟩

/-- A request for the view of the managers. -/
def managersRequest : Request where
  method := "GET"
  path := "/api/dashboard/managers?from=2025"
  headers := []
  body := []

/-- A desk whose server does not let the service in. -/
def lockedOut : Desk where
  statementTimeoutMs := 15000
  questionBase := "http://127.0.0.1:8001"
  nameRules := fun _ => none
  database :=
    { down := true
      fails := fun _ => false
      revenue := []
      catalog := ⟨[], [], [], []⟩
      result := .unreadable }
  questions := fun _ _ => .down
  elapsed := .string "ms"

theorem answer_dashboard_lockedOut :
    Opens managersRequest .managers ∧ ¬ lockedOut.database.Takes .revenue ∧
      DashboardExchange lockedOut .managers (lockedOut.answer managersRequest) := by
  have hopens : Opens managersRequest .managers := ⟨rfl, by decide +kernel⟩
  have hfails : ¬ lockedOut.database.Takes .revenue := fun h => absurd h.1 (by decide)
  exact ⟨hopens, hfails, answer_dashboard lockedOut hopens⟩

end RevenueDesk.Web
