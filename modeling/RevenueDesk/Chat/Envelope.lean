/-
# Envelopes

The question service answers with an *envelope*: a JSON object whose member `kind` says
which of four answers it holds, and which other members belong to it.  Members that do not
belong to the kind are ignored; one that does may not be repeated.  An array is read too:
the kind, and then the members of the kind in their order, of which the last ones may be
left off if they are optional.
-/
import RevenueDesk.Json.Reader

namespace RevenueDesk.Chat

/-- What the question service answers; `sql` is the query that it made of the question. -/
inductive Envelope where
  | scalar (value : Json) (label sql : Option String)
  | table (columns : List String) (rows : List (List Json)) (sql : Option String)
  | empty (message sql : Option String)
  | error (error : String) (sql : Option String)
deriving Inhabited

inductive Kind where
  | scalar
  | table
  | empty
  | error
deriving DecidableEq, Repr

namespace Kind

def ofName? (name : String) : Option Kind :=
  if name = "scalar" then some scalar
  else if name = "table" then some table
  else if name = "empty" then some empty
  else if name = "error" then some error
  else none

/-- The members that belong to a kind, in their order. -/
def fields : Kind → List String
  | scalar => ["value", "label", "sql"]
  | table => ["columns", "rows", "sql"]
  | empty => ["message", "sql"]
  | error => ["error", "sql"]

end Kind

/-- The items of a list, if `f` reads each of them. -/
def readAll? {α : Type} (f : Json → Option α) (v : Json) : Option (List α) :=
  v.items?.bind (List.mapM f)

/-- A text that may be missing or null. -/
def optionalText? (name : String) (fields : List (String × Json)) : Option (Option String) :=
  match Keyed.find? name fields with
  | none => some none
  | some .null => some none
  | some v => v.text?.map some

/-- An envelope from the members that belong to its kind, no name twice.  They are read as
they are written, and the values among them for what they denote. -/
def Kind.envelope? (kind : Kind) (fields : List (String × Json)) : Option Envelope := do
  let sql ← optionalText? "sql" fields
  match kind with
  | .scalar =>
    let value ← (Keyed.find? "value" fields).bind Json.denoted?
    let label ← optionalText? "label" fields
    some (.scalar value label sql)
  | .table =>
    let columns ← (Keyed.find? "columns" fields).bind (readAll? Json.text?)
    let rows ← match Keyed.find? "rows" fields with
      | none => some []
      | some v => readAll? (readAll? Json.denoted?) v
    some (.table columns rows sql)
  | .empty =>
    let message ← optionalText? "message" fields
    some (.empty message sql)
  | .error =>
    let error ← (Keyed.find? "error" fields).bind Json.text?
    some (.error error sql)

namespace Envelope

def kindField : String := "kind"

/-- The value of the one member of that name, if there is exactly one. -/
def one? (name : String) (members : List (String × Json)) : Option Json :=
  match members.filter (·.1 == name) with
  | [m] => some m.2
  | _ => none

/-- The envelope that an object is, given its members with repeats. -/
def ofMembers? (members : List (String × Json)) : Option Envelope := do
  let name ← (one? kindField members).bind Json.text?
  let kind ← Kind.ofName? name
  let fields := members.filter fun m => kind.fields.contains m.1
  if (fields.map Prod.fst).Nodup then kind.envelope? fields else none

def ofItems? : List Json → Option Envelope
  | .string name :: items => do
    let kind ← Kind.ofName? name
    if items.length ≤ kind.fields.length then kind.envelope? (kind.fields.zip items) else none
  | _ => none

/-- The envelope that a value is, read as it is written. -/
def ofWritten? : Json → Option Envelope
  | .object ms => ofMembers? ms
  | .array items => ofItems? items
  | _ => none

/-- The envelope that a text denotes. -/
def parse? (text : String) : Option Envelope := (Json.written? text).bind ofWritten?

/-- The envelope that the text in a body denotes. -/
def ofBytes? (body : List UInt8) : Option Envelope :=
  (Text.utf8? body).bind fun cs => parse? (String.ofList cs)

end Envelope

end RevenueDesk.Chat
