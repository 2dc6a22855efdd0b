/-
# Groups of rows

The rows of a ledger grouped under a key, with the revenue and the number of rows of each
group.  A row belongs to the group of its trimmed key, and to `Unassigned` if the key is
missing or blank, so no row is lost.  A field with several values, separated by commas,
puts the row into the group of each distinct value, with its whole revenue each time.

Groups are ranked: larger revenue first, and the key decides between equal ones.
-/
import RevenueDesk.Keyed
import RevenueDesk.Ledger.Row
import RevenueDesk.Text.Blank

namespace RevenueDesk

/-- A key with the revenue and the number of its rows. -/
structure Group (α : Type) where
  key : String
  /-- The sum of the revenues, in row order. -/
  revenue : α
  count : Nat
deriving Inhabited

namespace Ledger

variable {α : Type} [Amount α]

/-- The key of rows without one. -/
def unassigned : String := "Unassigned"

/-- The key of the group that stands for the end of a ranking. -/
def others : String := "Others"

def keyOf (field : Option String) : String :=
  let key := Text.trimmed (field.getD "")
  if key.isEmpty then unassigned else key

/-- The keys that a field with several values gives: its distinct parts between commas,
trimmed, blank ones left out. -/
def keysOf (field : Option String) : List String :=
  let parts := (Text.splitWhere (· == ',') (field.getD "").toList).map fun part =>
    String.ofList (Text.trim part)
  match (parts.filter (!·.isEmpty)).eraseDups with
  | [] => [unassigned]
  | keys => keys

/-- Book an amount under a key. -/
def book (tally : List (String × α × Nat)) (key : String) (amount : α) :
    List (String × α × Nat) :=
  Keyed.update key (fun held =>
    let (revenue, count) := held.getD (Amount.zero, 0)
    (revenue + amount, count + 1)) tally

/-- Revenue and count of every key, in the order in which the keys first occur. -/
def tally (rows : List (Row α)) (keys : Row α → List String) : List (String × α × Nat) :=
  rows.foldl (fun t row => (keys row).foldl (fun t key => book t key row.amount) t) []

/-- `a` is ranked before `b`, or they are equal. -/
def rankedBefore (a b : String × α) : Bool :=
  match Amount.rank b.2 a.2 with
  | .lt => true
  | .gt => false
  | .eq => a.1 ≤ b.1

/-- A list ranked by the revenue and the key of its entries. -/
def rankBy {β : Type} (figure : β → String × α) (xs : List β) : List β :=
  xs.mergeSort fun a b => rankedBefore (figure a) (figure b)

def ranked (groups : List (Group α)) : List (Group α) :=
  rankBy (fun g => (g.key, g.revenue)) groups

/-- The ranked groups of rows under the keys that each row has. -/
def groupByKeys (rows : List (Row α)) (keys : Row α → List String) : List (Group α) :=
  ranked ((tally rows keys).map fun (key, revenue, count) => ⟨key, revenue, count⟩)

def groupBy (rows : List (Row α)) (field : Row α → Option String) : List (Group α) :=
  groupByKeys rows fun row => [keyOf (field row)]

/-- The ranked groups of rows under a field with several values. -/
def groupByEach (rows : List (Row α)) (field : Row α → Option String) : List (Group α) :=
  groupByKeys rows fun row => keysOf (field row)

def countOf (groups : List (Group α)) : Nat := groups.foldl (fun n g => n + g.count) 0

/-- The group that stands for all of `groups`. -/
def merged (groups : List (Group α)) : Group α :=
  { key := others
    revenue := Amount.total (groups.map Group.revenue)
    count := countOf groups }

/-- The first `n` groups, the rest merged into one. -/
def topWithOthers (n : Nat) (groups : List (Group α)) : List (Group α) :=
  if groups.length ≤ n then groups
  else groups.take n ++ [merged (groups.drop n)]

def totalOf (groups : List (Group α)) : α := Amount.total (groups.map Group.revenue)

end Ledger

end RevenueDesk
