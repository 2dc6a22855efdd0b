/-
# Requests and responses

What arrives over the network and what is sent back.  Clients on other origins may use the
service, so every response says that all origins may read it.
-/
import RevenueDesk.Json.Value
import RevenueDesk.Text.Letter

namespace RevenueDesk.Web

structure Request where
  method : String
  /-- The path, with a query behind it if there is one, or the full address. -/
  path : String
  headers : List (String × String)
  body : List UInt8
deriving Inhabited

inductive Content where
  | nothing
  | text (s : String)
  | json (v : Json)
deriving Inhabited

structure Response where
  status : Nat
  /-- Names and values of the headers, in the order of the names. -/
  headers : List (String × String)
  content : Content
deriving Inhabited

namespace Request

def headerName (name : String) : String :=
  String.ofList (name.toList.map fun c =>
    if Text.isCapital c then Char.ofNat (c.toNat + 32) else c)

/-- The value of a header, whose name is given in small letters. -/
def header? (r : Request) (name : String) : Option String :=
  (r.headers.find? fun h => headerName h.1 == name).map Prod.snd

/-- `c` can stand in the scheme of an address. -/
def isSchemeChar (c : Char) : Bool :=
  Text.isSmall c || Text.isCapital c || Text.isDigit c || c == '+' || c == '-' || c == '.'

/-- What stands behind the scheme and the host of a full address; nothing of a text that is
not one. -/
def behindHost (cs : List Char) : List Char :=
  match Text.dropStart? [':', '/', '/'] (cs.dropWhile isSchemeChar) with
  | some rest => rest.dropWhile fun c => c != '/' && c != '?' && c != '#'
  | none => []

/-- The path without the query.  It may be part of a full address. -/
def route (r : Request) : String :=
  let cs := r.path.toList
  let path := if cs.head? = some '/' then cs else behindHost cs
  String.ofList (path.takeWhile fun c => c != '?' && c != '#')

end Request

namespace Response

def json (status : Nat) (v : Json) : Response :=
  ⟨status, [("content-type", "application/json")], .json v⟩

def text (status : Nat) (s : String) : Response :=
  ⟨status, [("content-type", "text/plain; charset=utf-8")], .text s⟩

/-- A path that leads nowhere. -/
def notFound : Response := ⟨404, [], .nothing⟩

/-- A method that the path does not have; it has those in `allowed`. -/
def methodNotAllowed (allowed : String) : Response :=
  ⟨405, [("allow", allowed)], .nothing⟩

/-- The headers that let other origins read a response. -/
def sharedHeaders : List (String × String) :=
  [("access-control-allow-origin", "*"), ("access-control-expose-headers", "*")]

/-- The same response, for clients on other origins to read. -/
def shared (r : Response) : Response := { r with headers := sharedHeaders ++ r.headers }

/-- What a client is told that asks beforehand what it may send; a path that leads
somewhere also says which methods it has. -/
def preflight (allowed : Option String) : Response :=
  { status := 200
    headers :=
      [("access-control-allow-headers", "*"), ("access-control-allow-methods", "*"),
        ("access-control-allow-origin", "*")] ++ (allowed.map fun a => ("allow", a)).toList
    content := .nothing }

def withoutContent (r : Response) : Response := { r with content := .nothing }

end Response

end RevenueDesk.Web
