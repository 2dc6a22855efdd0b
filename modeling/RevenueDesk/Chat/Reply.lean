/-
# Replies

What the chat shows for a question.  A failure of the question service, whatever it is, is
shown as the same apology.
-/
import RevenueDesk.Chat.Envelope
import RevenueDesk.Chat.Scalar

namespace RevenueDesk.Chat

/-- What the chat shows. -/
inductive Answer where
  /-- A single value, and how it is written. -/
  | scalar (value : Json) (formatted : String) (label : Option String)
  | table (columns : List String) (rows : List (List Json))
  | empty (message : String)
  | unavailable (message : String)
deriving Inhabited

structure Reply where
  question : String
  answer : Answer
  /-- The query that the question was turned into, if it is known. -/
  sql : Option String
deriving Inhabited

/-- What is shown if there is no answer. -/
def apology : String := "Sorry, I couldn't answer that right now. Please try again in a moment."

/-- What is shown for an empty answer that has no message of its own. -/
def noRecords : String := "No records found matching your query."

namespace Reply

def unavailable (question : String) : Reply := ⟨question, .unavailable apology, none⟩

/-- The reply that an envelope makes. -/
def ofEnvelope (question : String) : Envelope → Reply
  | .scalar value label sql => ⟨question, .scalar value (formatScalar value) label, sql⟩
  | .table columns rows sql => ⟨question, .table columns rows, sql⟩
  | .empty message sql => ⟨question, .empty (message.getD noRecords), sql⟩
  | .error _ sql => ⟨question, .unavailable apology, sql⟩

end Reply

/-! ## As JSON -/

open Json (ofOption ofStrings ofList)

def Answer.toJson : Answer → Json
  | .scalar value formatted label =>
    .object
      [("kind", .string "scalar"), ("value", value), ("formatted", .string formatted),
        ("label", ofOption .string label)]
  | .table columns rows =>
    .object
      [("kind", .string "table"), ("columns", ofStrings columns), ("rows", ofList .array rows)]
  | .empty message => .object [("kind", .string "empty"), ("message", .string message)]
  | .unavailable message =>
    .object [("kind", .string "unavailable"), ("message", .string message)]

def Reply.toJson (r : Reply) : Json :=
  .object
    [("question", .string r.question), ("answer", r.answer.toJson),
      ("sql", ofOption .string r.sql)]

end RevenueDesk.Chat
