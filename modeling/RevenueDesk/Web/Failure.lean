/-
# Failures

Why a request gets no result.  Failures that the client can do something about are told
with status 400; all others give status 500 and a wording that tells nothing.
-/
import RevenueDesk.Database.Run
import RevenueDesk.Sql.Guard
import RevenueDesk.Web.Response

namespace RevenueDesk.Web

/-- Why a request gets no result. -/
inductive Failure where
  /-- Fields of the request break their rules; each with what is wrong with it. -/
  | invalidFields (details : List (String × List String))
  | invalidQuery (reason : String)
  | missingParameter (name : String)
  | queryFailed (message : String)
  /-- The database cannot be used. -/
  | database
  | internal
deriving DecidableEq, Repr

namespace Failure

def display : Failure → String
  | invalidFields _ => "Erro de validação"
  | invalidQuery reason => "SQL validation failed: " ++ reason
  | missingParameter name => "Missing value for query parameter ':" ++ name ++ "'"
  | queryFailed message => "Database error: " ++ message
  | database => "Erro de banco de dados"
  | internal => "Erro interno do servidor"

def ofRefusal (r : Sql.Refusal) : Failure := .invalidQuery r.message

def ofDatabase : Database.DbFailure → Failure
  | .rejected message => .queryFailed message
  | .broken => .database

def errorBody (message : String) : Json := .object [("error", .string message)]

def response : Failure → Response
  | invalidFields details =>
    .json 400 (.object
      [("error", .string "One or more fields are invalid."),
        ("details", .object (details.map fun (field, messages) =>
          (field, Json.ofStrings messages)))])
  | invalidQuery reason => .json 400 (errorBody (display (.invalidQuery reason)))
  | missingParameter name => .json 400 (errorBody (display (.missingParameter name)))
  | queryFailed message => .json 400 (errorBody (display (.queryFailed message)))
  | database => .json 500 (errorBody "An unexpected error occurred.")
  | internal => .json 500 (errorBody "An unexpected error occurred.")

end Failure

end RevenueDesk.Web
