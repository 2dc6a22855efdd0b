/-
# Running statements

Work on the database sends statements one after the other and stops at the first one that
fails.  A *run* is what has been sent and what came of it.  The database itself is given as
a value that says what it does with each statement, so that work on it is a function of
what it does.
-/
import RevenueDesk.Catalog.Schema
import RevenueDesk.Ledger.Row
import RevenueDesk.Sql.Prepared

namespace RevenueDesk.Database

/-- A statement that is sent to the database. -/
inductive Statement where
  | begin
  /-- Let the transaction only read. -/
  | setReadOnly
  /-- Limit the time of its statements, in milliseconds. -/
  | setTimeout (ms : Nat)
  /-- A query of a client, with its values. -/
  | query (text : String) (values : List Sql.BoundValue)
  | commit
  | revenue
  | columns
  | primaryKeys
  | foreignKeys
  | indexes
  | health
deriving Inhabited

def timeoutText (ms : Nat) : String :=
  "SET LOCAL statement_timeout = " ++ String.ofList (Digits.numeral ms)

/-- Why work on the database ended. -/
inductive DbFailure where
  | rejected (message : String)
  /-- Anything else: no connection, a failing statement, an answer that makes no sense. -/
  | broken
deriving DecidableEq, Repr

/-- What the database answers to the query of a client. -/
inductive QueryResult where
  | value (v : Json)
  /-- No row, a null, or a text that is not JSON. -/
  | unreadable
  | rejected (message : String)
deriving Inhabited

/-- What the database does. -/
structure Server where
  /-- It refuses the login, so that nothing can be sent. -/
  down : Bool
  /-- The statements that fail. -/
  fails : Statement → Bool
  revenue : List (Row Binary64)
  catalog : Catalog.Rows
  /-- What the query of a client gives. -/
  result : QueryResult

/-- What has been sent, and what came of it. -/
structure Run (α : Type) where
  /-- The statements, in order; one that failed is the last. -/
  sent : List Statement
  outcome : Except DbFailure α

namespace Run

/-- Work that sends nothing. -/
def done {α : Type} (a : α) : Run α := ⟨[], .ok a⟩

/-- Work that ends here. -/
def fail {α : Type} (e : DbFailure) : Run α := ⟨[], .error e⟩

/-- One work after another; the second is not begun if the first fails. -/
def andThen {α β : Type} (r : Run α) (f : α → Run β) : Run β :=
  match r.outcome with
  | .ok a => ⟨r.sent ++ (f a).sent, (f a).outcome⟩
  | .error e => ⟨r.sent, .error e⟩

instance : Monad Run where
  pure := done
  bind := andThen

@[simp] theorem pure_def {α : Type} (a : α) : (pure a : Run α) = done a := rfl

@[simp] theorem bind_def {α β : Type} (r : Run α) (f : α → Run β) : r >>= f = andThen r f :=
  rfl

@[simp] theorem andThen_done {α β : Type} (a : α) (f : α → Run β) : andThen (done a) f = f a :=
  rfl

@[simp] theorem andThen_fail {α β : Type} (e : DbFailure) (f : α → Run β) :
    andThen (fail e) f = fail e := rfl

def result? {α : Type} (r : Run α) : Option α :=
  match r.outcome with
  | .ok a => some a
  | .error _ => none

end Run

variable (db : Server)

def send (s : Statement) : Run Unit :=
  if db.down then .fail .broken
  else if db.fails s then ⟨[s], .error .broken⟩
  else ⟨[s], .ok ()⟩

/-! ## Work -/

/-- The rows that a JSON value holds: the items of an array, nothing for null, and the value
itself otherwise. -/
def rowsOf : Json → List Json
  | .array rows => rows
  | .null => []
  | v => [v]

/-- What the query of a client gives, once it has been sent. -/
def readResult : QueryResult → Run Json
  | .value v => .done v
  | .unreadable => .fail .broken
  | .rejected message => .fail (.rejected message)

/-- Run the query of a client: in a transaction that only reads and that is limited in time,
wrapped so that its rows come back as JSON.  The transaction is committed only when the
rows have been read. -/
def runReadOnly (timeoutMs : Nat) (query : Sql.Prepared) : Run (List Json) := do
  send db .begin
  send db .setReadOnly
  send db (.setTimeout timeoutMs)
  send db (.query (Sql.wrapped query.text) (query.values.map Sql.BoundValue.ofJson))
  let v ← readResult db.result
  send db .commit
  return rowsOf v

def loadRevenue : Run (List (Row Binary64)) := do
  send db .revenue
  return db.revenue

def loadSchema : Run (List Catalog.Table) := do
  send db .columns
  send db .primaryKeys
  send db .foreignKeys
  send db .indexes
  return Catalog.assemble db.catalog

def checkHealth : Run Unit := send db .health

end RevenueDesk.Database
