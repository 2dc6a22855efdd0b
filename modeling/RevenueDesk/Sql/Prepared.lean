/-
# Named parameters

A query may refer to values by name, as in `:client`.  The database takes values by
position, so every reference gives way to `$1`, `$2`, … in the order in which the names
first occur; a name that occurs again keeps its position.  A null is written into the text
as `NULL`.  Names inside literals, quoted identifiers and comments are left alone.

Without any parameters the text is not looked at.
-/
import RevenueDesk.Json.Value
import RevenueDesk.Number.Digits
import RevenueDesk.Sql.Token

namespace RevenueDesk.Sql

/-- A query ready to be sent: its text, and the values of its positions in order. -/
structure Prepared where
  text : String
  values : List Json
deriving Inhabited

/-- The text refers to a name that has no value. -/
structure MissingParameter where
  name : String
deriving DecidableEq, Repr

/-- The name that a token refers to, if it refers to one. -/
def Token.name? : Token → Option String
  | .reference name => some (String.ofList name)
  | _ => none

/-- The names that a list of tokens refers to, in order, repeats included. -/
def references (ts : List Token) : List String := ts.filterMap Token.name?

def isNull : Json → Bool
  | .null => true
  | _ => false

variable (parameters : List (String × Json))

/-- The name has no value. -/
def isMissing (name : String) : Bool := (Keyed.find? name parameters).isNone

/-- The name has a value other than null. -/
def isBound (name : String) : Bool :=
  match Keyed.find? name parameters with
  | some v => !isNull v
  | none => false

/-- The names that get a position, in the order of the positions. -/
def positions (ts : List Token) : List String :=
  ((references ts).filter (isBound parameters)).eraseDups

/-- What stands in the place of a token, when `order` are the names that have positions. -/
def placeToken (order : List String) (t : Token) : List Char :=
  match t.name? with
  | none => t.text
  | some name =>
    if isBound parameters name then '$' :: Digits.numeral (order.idxOf name + 1)
    else if isMissing parameters name then t.text
    else ['N', 'U', 'L', 'L']

/-- A list of tokens with positions for its references, and the values of the positions. -/
def place (ts : List Token) : Prepared :=
  let order := positions parameters ts
  { text := String.ofList (ts.flatMap (placeToken parameters order))
    values := order.filterMap fun name => Keyed.find? name parameters }

/-- A query with its parameters put in place; the first name without a value if there is
one. -/
def bind (sql : String) : Except MissingParameter Prepared :=
  if parameters.isEmpty then .ok ⟨sql, []⟩
  else
    let ts := tokens sql.toList
    match (references ts).find? (isMissing parameters) with
    | some name => .error ⟨name⟩
    | none => .ok (place parameters ts)

/-- The query inside the one that is sent: the database gives all rows back as one JSON
array.  The closing parenthesis stands on a line of its own, where a line comment at the
end of the query does not reach it. -/
def wrapped (sql : String) : String :=
  "SELECT COALESCE(json_agg(q), '[]'::json) FROM (\n" ++ sql ++ "\n) AS q"

/-! ## Values -/

/-- A value as it is handed to the database. -/
inductive BoundValue where
  | bool (b : Bool)
  /-- A signed 64-bit integer. -/
  | int8 (n : Int)
  | float8 (x : Binary64)
  | text (s : String)
  /-- An array or an object, as its compact text. -/
  | jsonb (v : Json)
deriving Inhabited

/-- The form in which a value is handed over. -/
def BoundValue.ofJson : Json → BoundValue
  | .bool b => .bool b
  | .number n =>
    match n.toSigned? with
    | some i => .int8 i
    | none => .float8 n.toBinary64
  | .string s => .text s
  | v => .jsonb v

end RevenueDesk.Sql
