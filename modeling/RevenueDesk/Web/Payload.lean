/-
# Request bodies

A body is read for the few fields that a request has, without building the rest of it.
Fields may come as the members of an object, in any order and among others that are passed
over, or as the items of an array, in their fixed order.

Reading stops at the first thing that is wrong, and it matters what that is: a body that is
not JSON (or whose fields cannot be read as text), or one that is JSON of the wrong shape,
with a field that is missing, repeated or of the wrong type.
-/
import RevenueDesk.Json.Reader
import RevenueDesk.Json.Skim
import RevenueDesk.Text.Blank

namespace RevenueDesk.Web

open Text (Symbol)
open Json (Fault Reading afterColon orNotJson skipSpace)

inductive FieldType where
  | text
  /-- An object with any members, or null. -/
  | members
deriving DecidableEq, Repr

structure Field where
  name : String
  type : FieldType
  /-- It may be left out. -/
  optional : Bool
deriving DecidableEq, Repr

inductive FieldValue where
  | text (s : String)
  /-- The members, or nothing for null. -/
  | members (ms : Option (List (String × Json)))
deriving Inhabited

/-! ## Values of fields -/

/-- An object or null.  The names of its members have no meaning of their own, but those of
the objects inside may have.  The body and the object itself count as levels of nesting. -/
def membersValue (cs : List Symbol) : Reading (Option (List (String × Json))) :=
  match skipSpace cs with
  | some 'n' :: cs => orNotJson ((Json.word? ['u', 'l', 'l'] cs).map fun rest => (none, rest))
  | some '\x7b' :: cs =>
    match skipSpace cs with
    | some '\x7d' :: rest => .ok (some [], rest)
    | cs =>
      (Json.memberList .full (Json.stepsFor cs) (Json.maxDepth - 2) [] cs).map fun (ms, rest) =>
        (some (Json.distinct ms), rest)
  | cs => .error (Json.mistyped cs)

def fieldValue (type : FieldType) (cs : List Symbol) : Reading FieldValue :=
  match type with
  | .text => (Json.textValue cs).map fun (s, rest) => (.text s, rest)
  | .members => (membersValue cs).map fun (ms, rest) => (.members ms, rest)

/-! ## Bodies -/

/-- The values of the fields that have been read, by name. -/
abbrev Fields := List (String × FieldValue)

/-- The fields of an object, if none is missing. -/
def complete (fields : List Field) (found : Fields) : Except Fault Fields :=
  if fields.all fun f => f.optional || (Keyed.find? f.name found).isSome then .ok found
  else .error .wrongShape

/-- One member of an object behind the opening quote of its name, added to those that have
been found; a value that is passed over may take `limit` steps. -/
def member (limit : Nat) (fields : List Field) (found : Fields) (cs : List Symbol) :
    Except Fault (Fields × List Symbol) := do
  let (name, cs) ← orNotJson (Json.quoted? cs)
  match fields.find? (·.name == name) with
  | some f =>
    if (Keyed.find? name found).isSome then .error .wrongShape
    else
      let (v, cs) ← fieldValue f.type (← afterColon cs)
      return (found ++ [(name, v)], cs)
  | none =>
    match Json.skim? limit (← afterColon cs) with
    | some rest => return (found, rest)
    | none => .error .notJson

/-- The members of an object up to its closing brace, where a name has to stand. -/
def memberFields (limit : Nat) (fields : List Field) :
    (steps : Nat) → Fields → List Symbol → Reading Fields
  | 0, _, _ => .error .notJson
  | steps + 1, found, cs =>
    match skipSpace cs with
    | some '"' :: cs =>
      match member limit fields found cs with
      | .error e => .error e
      | .ok (found, cs) =>
        match skipSpace cs with
        | some ',' :: cs => memberFields limit fields steps found cs
        | some '\x7d' :: rest => (complete fields found).map fun found => (found, rest)
        | _ => .error .notJson
    | _ => .error .notJson

/-- The items of an array up to its closing bracket; `first` says that no item stands before
them. -/
def itemFields (first : Bool) : List Field → Fields → List Symbol → Reading Fields
  | [], found, cs =>
    match skipSpace cs with
    | some ']' :: rest => .ok (found, rest)
    | _ => .error .notJson
  | f :: fields, found, cs =>
    match skipSpace cs with
    | [] => .error .notJson
    | some ']' :: rest => (complete (f :: fields) found).map fun found => (found, rest)
    | some c :: cs =>
      if c = ',' ∧ !first then
        match skipSpace cs with
        | [] => .error .notJson
        | some ']' :: _ => .error .notJson
        | cs =>
          match fieldValue f.type cs with
          | .error e => .error e
          | .ok (v, cs) => itemFields false fields (found ++ [(f.name, v)]) cs
      else if first then
        match fieldValue f.type (some c :: cs) with
        | .error e => .error e
        | .ok (v, cs) => itemFields false fields (found ++ [(f.name, v)]) cs
      else .error .notJson
    | none :: _ => .error .notJson

/-- The fields of a body, and what follows. -/
def bodyFields (fields : List Field) (cs : List Symbol) : Reading Fields :=
  match skipSpace cs with
  | some '\x7b' :: cs =>
    match skipSpace cs with
    | some '\x7d' :: rest => (complete fields []).map fun found => (found, rest)
    | cs => memberFields (Json.stepsFor cs + 1) fields (Json.stepsFor cs) [] cs
  | some '[' :: cs => itemFields true fields [] cs
  | cs => .error (Json.mistyped cs)

/-- The fields of a body, given as bytes. -/
def readBody (fields : List Field) (body : List UInt8) : Except Fault Fields := do
  let (found, rest) ← bodyFields fields (Text.symbolsOfBytes body)
  if Json.atEnd rest then return found else .error .notJson

/-! ## The two kinds of bodies -/

structure QueryPayload where
  query : String
  parameters : Option (List (String × Json))
deriving Inhabited

structure QuestionPayload where
  question : String
deriving DecidableEq, Inhabited, Repr

def Fields.text? (found : Fields) (name : String) : Option String :=
  match Keyed.find? name found with
  | some (.text s) => some s
  | _ => none

def Fields.members? (found : Fields) (name : String) : Option (List (String × Json)) :=
  match Keyed.find? name found with
  | some (.members ms) => ms
  | _ => none

namespace QueryPayload

def fields : List Field := [⟨"query", .text, false⟩, ⟨"parameters", .members, true⟩]

def ofBody (body : List UInt8) : Except Fault QueryPayload := do
  let found ← readBody fields body
  match found.text? "query" with
  | some q => return ⟨q, found.members? "parameters"⟩
  | none => .error .wrongShape

def longest : Nat := 20000

def complaints (p : QueryPayload) : List (String × List String) :=
  if 1 ≤ p.query.length ∧ p.query.length ≤ longest then []
  else [("query", ["query must be between 1 and 20000 characters"])]

end QueryPayload

namespace QuestionPayload

def fields : List Field := [⟨"question", .text, false⟩]

def ofBody (body : List UInt8) : Except Fault QuestionPayload := do
  let found ← readBody fields body
  match found.text? "question" with
  | some q => return ⟨q⟩
  | none => .error .wrongShape

def longest : Nat := 1000

def complaints (p : QuestionPayload) : List (String × List String) :=
  let tooLong := if p.question.length ≤ longest then []
    else ["question must be at most 1000 characters"]
  let blank := if Text.isAllBlank p.question then ["question must not be blank"] else []
  match tooLong ++ blank with
  | [] => []
  | messages => [("question", messages)]

end QuestionPayload

end RevenueDesk.Web
