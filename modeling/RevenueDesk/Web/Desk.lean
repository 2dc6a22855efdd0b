/-
# The desk

The service as a whole: what it answers to a request, which statements it sends to the
database on the way, and which questions to the question service.

* `GET /api/health` tells whether the database answers;
* `GET /api/schema` lists the tables of the database;
* `GET /api/dashboard/…` are the five views; they never fail, but show an empty table if the
  rows cannot be loaded;
* `POST /api/query/sql` runs a query of the client, if the guard lets it through;
* `POST /api/assistant/ask` passes a question on.
-/
import RevenueDesk.Chat.Relay
import RevenueDesk.Dashboard.Rendering
import RevenueDesk.Web.Failure
import RevenueDesk.Web.MediaType
import RevenueDesk.Web.Payload

namespace RevenueDesk.Web

open Database (Statement Server)

/-- The service with what it is connected to. -/
structure Desk where
  /-- The time that a query may take, in milliseconds. -/
  statementTimeoutMs : Nat
  /-- The base of the address of the question service. -/
  questionBase : String
  /-- The rules for names of other scripts. -/
  nameRules : Chat.NameRules
  database : Server
  questions : Chat.Service
  /-- The time that a query took, as it is reported. -/
  elapsed : Json

/-- What becomes of a request. -/
structure Exchange where
  response : Response
  statements : List Statement
  /-- The requests that the question service sees, and those it points to. -/
  asked : List Chat.SeenRequest
deriving Inhabited

/-- A response that takes nothing from outside. -/
def Exchange.ofResponse (r : Response) : Exchange := ⟨r, [], []⟩

/-! ## Queries -/

/-- The names of the columns: the members of the first row, if it is an object. -/
def columnsOf : List Json → List String
  | .object ms :: _ => ms.map Prod.fst
  | _ => []

/-- The report on a query that was run. -/
def queryReport (elapsed : Json) (data : List Json) : Json :=
  .object
    [("success", .bool true),
      ("data", .array data),
      ("columns", .ofStrings (columnsOf data)),
      ("rowCount", .ofNat data.length),
      ("executionTimeMs", elapsed),
      ("mode", .string "sql")]

/-- A query as it is sent, if its fields, the guard and its parameters allow it. -/
def prepare (p : QueryPayload) : Except Failure Sql.Prepared :=
  match p.complaints with
  | c :: cs => .error (.invalidFields (c :: cs))
  | [] =>
    match Sql.refusal? p.query.toList with
    | some r => .error (.ofRefusal r)
    | none =>
      let text := String.ofList (Sql.stripTerminator p.query.toList)
      match Sql.bind (p.parameters.getD []) text with
      | .error e => .error (.missingParameter e.name)
      | .ok prepared => .ok prepared

namespace Desk

variable (desk : Desk)

def runQuery (p : QueryPayload) : Exchange :=
  match prepare p with
  | .error e => .ofResponse e.response
  | .ok prepared =>
    let run := Database.runReadOnly desk.database desk.statementTimeoutMs prepared
    match run.outcome with
    | .ok data => ⟨.json 200 (queryReport desk.elapsed data), run.sent, []⟩
    | .error e => ⟨(Failure.ofDatabase e).response, run.sent, []⟩

/-! ## Questions -/

/-- Where questions are sent to. -/
def questionAddress? : Option Chat.Address :=
  Chat.Address.ofText? desk.nameRules (Chat.endpoint desk.questionBase)

def askQuestion (p : QuestionPayload) : Exchange :=
  match p.complaints with
  | c :: cs => .ofResponse (Failure.invalidFields (c :: cs)).response
  | [] =>
    let (seen, reply) := Chat.ask desk.questionAddress? desk.questions p.question
    ⟨.json 200 reply.toJson, [], seen⟩

/-! ## What is asked for with GET -/

def health : Exchange :=
  let run := Database.checkHealth desk.database
  let body := .object
    [("status", .string "OK"), ("database", .bool run.result?.isSome)]
  ⟨.json 200 body, run.sent, []⟩

def schema : Exchange :=
  let run := Database.loadSchema desk.database
  match run.outcome with
  | .ok tables => ⟨.json 200 (Catalog.schemaToJson tables), run.sent, []⟩
  | .error e => ⟨(Failure.ofDatabase e).response, run.sent, []⟩

def dashboard (view : Snapshot Binary64 → Json) : Exchange :=
  let run := Database.loadRevenue desk.database
  ⟨.json 200 (view (.ofLoad run.result?)), run.sent, []⟩

end Desk

/-! ## Routes -/

/-- What a path leads to. -/
inductive Route where
  | get (answer : Desk → Exchange)
  | post (answer : Desk → List UInt8 → Except Json.Fault Exchange)

/-- The view of a name, as JSON. -/
def viewOf? (name : String) : Option (Snapshot Binary64 → Json) :=
  match name with
  | "executive" => some fun s => (ExecutiveView.of s).toJson
  | "skills" => some fun s => (SkillsView.of s).toJson
  | "designations" => some fun s => (DesignationsView.of s).toJson
  | "time" => some fun s => (TrendView.of s).toJson
  | "managers" => some fun s => (ManagersView.of s).toJson
  | _ => none

def dashboardPath : List Char := "/api/dashboard/".toList

/-- What a path leads to, if it leads anywhere. -/
def Route.of? (path : String) : Option Route :=
  match path with
  | "/api/health" => some (.get Desk.health)
  | "/api/schema" => some (.get Desk.schema)
  | "/api/query/sql" =>
    some (.post fun desk body => (QueryPayload.ofBody body).map desk.runQuery)
  | "/api/assistant/ask" =>
    some (.post fun desk body => (QuestionPayload.ofBody body).map desk.askQuestion)
  | path =>
    match Text.dropStart? dashboardPath path.toList with
    | some name => (viewOf? (String.ofList name)).map fun view => .get (·.dashboard view)
    | none => none

def Route.methods : Route → String
  | get _ => "GET,HEAD"
  | post _ => "POST"

/-- The largest body, in bytes. -/
def largestBody : Nat := 2097152

/-- What is wrong with a body, as a response. -/
def faultResponse : Json.Fault → Response
  | .notJson => .text 400 "Failed to parse the request body as JSON"
  | .wrongShape => .text 422 "Failed to deserialize the JSON body into the target type"

/-- The response to a request whose body is not said to be JSON. -/
def unsupportedMediaType : Response := .text 415 "Expected request with \x60Content-Type"

def bodyTooLarge : Response := .text 413 "Failed to buffer the request body"

def saysJson (r : Request) : Bool := (r.header? "content-type").any MediaType.isJson

def withBody (answer : List UInt8 → Except Json.Fault Exchange) (r : Request) : Exchange :=
  if !saysJson r then .ofResponse unsupportedMediaType
  else if largestBody < r.body.length then .ofResponse bodyTooLarge
  else
    match answer r.body with
    | .ok e => e
    | .error fault => .ofResponse (faultResponse fault)

def Desk.answerOn (desk : Desk) (r : Request) : Option Route → Exchange
  | none => .ofResponse .notFound
  | some (.get answer) =>
    if r.method = "GET" then answer desk
    else if r.method = "HEAD" then
      let e := answer desk
      { e with response := e.response.withoutContent }
    else .ofResponse (.methodNotAllowed (Route.get answer).methods)
  | some (.post answer) =>
    if r.method = "POST" then withBody (answer desk) r
    else .ofResponse (.methodNotAllowed (Route.post answer).methods)

def Desk.answer (desk : Desk) (r : Request) : Exchange :=
  let route := Route.of? r.route
  if r.method = "OPTIONS" then .ofResponse (.preflight (route.map Route.methods))
  else
    let e := desk.answerOn r route
    { e with response := e.response.shared }

/-! ## Starting up -/

/-- What is told if the database does not let the service in when it starts. -/
def startupMessage : String := "Falha ao conectar ao banco de dados"

/-- The service is let in when it starts. -/
def Desk.starts (desk : Desk) : Bool := !desk.database.down

end RevenueDesk.Web
