/-
# The executive view

Who the revenue comes from: the total, the leading client, how much the first five clients
and the long tail make up, how concentrated revenue is, and the ranking of the clients with
its Pareto curve.

Shares and concentration are taken over all clients; only then is the ranking cut after ten
clients and the rest shown as one entry.
-/
import RevenueDesk.Ledger.ClientName
import RevenueDesk.Ledger.Measure

namespace RevenueDesk

structure TopEntry (α : Type) where
  name : String
  revenue : α
  /-- Its share of the total, in percent. -/
  sharePct : α
deriving Inhabited

/-- The leader of a ranking, by its share of `whole`. -/
def TopEntry.of {α : Type} [Amount α] (name : String) (revenue whole : α) : TopEntry α :=
  ⟨name, revenue, Ledger.sharePct revenue whole⟩

structure ClientEntry (α : Type) where
  name : String
  /-- The key of the client in the ledger. -/
  fullName : String
  revenue : α
  count : Nat
deriving Inhabited

structure ExecutiveView (α : Type) where
  source : Source
  totalRevenue : α
  clientCount : Nat
  avgRevenuePerClient : α
  topClient : Option (TopEntry α)
  /-- The share of the first five clients, in percent. -/
  top5SharePct : α
  /-- The concentration index, from 0 to 10000. -/
  concentrationHhi : Option α
  /-- The share of the clients after the fifth, in percent. -/
  longTailSharePct : α
  /-- The ranking, cut after the tenth client. -/
  clients : List (ClientEntry α)
  pareto : List (Ledger.ParetoPoint α)
deriving Inhabited

namespace ExecutiveView

open Ledger Amount

/-- How many clients the chart shows. -/
def topClients : Nat := 10

/-- How many clients make up the head of the ranking. -/
def headClients : Nat := 5

/-- The name that a chart shows for a key. -/
def displayName (key : String) : String :=
  if key = others then key else shortClientName key

variable {α : Type} [Amount α]

def of (s : Snapshot α) : ExecutiveView α :=
  let clients := groupBy s.rows Row.customer
  let whole := s.totalRevenue
  let shown := topWithOthers topClients clients
  { source := s.source
    totalRevenue := whole
    clientCount := clients.length
    avgRevenuePerClient := if clients.isEmpty then zero else whole / ofNat clients.length
    topClient := clients.head?.map fun g => .of (shortClientName g.key) g.revenue whole
    top5SharePct := sharePct (sum ((clients.take headClients).map Group.revenue)) whole
    concentrationHhi := (concentration? clients).map (· * ofNat 10000)
    longTailSharePct := sharePct (sum ((clients.drop headClients).map Group.revenue)) whole
    clients := shown.map fun g => ⟨displayName g.key, g.key, g.revenue, g.count⟩
    pareto := (Ledger.pareto shown).map fun p => { p with key := displayName p.key } }

end ExecutiveView

end RevenueDesk
