/-
# The body that holds a question

Any question can be put into a body: written as an object whose only member is the question,
in UTF-8, it is read as this question, whatever characters it has (`ofBody_questionBytes`).
How long it gets is bounded by the length of the question (`length_questionBytes_le`,
`le_length_questionBytes`).
-/
import Mathlib.Tactic.Common
import RevenueDesk.Proofs.Json.ReadBack
import RevenueDesk.Proofs.Text.Utf8
import RevenueDesk.Web.Payload

namespace RevenueDesk.Web

open Json (quotedTail quoted?_quotedTail skipSpace_cons)
open Text (Symbol utf8)

/-- A question as the bytes of a body. -/
def questionBytes (question : String) : List UInt8 :=
  utf8 (Json.chars (.object [("question", .string question)]))

section Reading

variable (question : String) (rest : List Symbol)

lemma symbolsOfBytes_questionBytes :
    Text.symbolsOfBytes (questionBytes question) =
      some '\x7b' :: some '"' :: quotedTail "question"
        (some ':' :: some '"' :: quotedTail question [some '\x7d']) := by
  rw [questionBytes, Text.symbolsOfBytes_utf8, ← Json.symbolsOf_textObject, Text.symbolsOf,
    Json.compact, String.toList_ofList]

lemma textValue_quotedTail :
    Json.textValue (some '"' :: quotedTail question rest) = .ok (question, rest) := by
  rw [Json.textValue, skipSpace_cons _ (by decide)]
  simp [quoted?_quotedTail, Json.orNotJson]

/-- The member that holds the question. -/
lemma member_question (limit : Nat) :
    member limit QuestionPayload.fields []
        (quotedTail "question" (some ':' :: some '"' :: quotedTail question rest)) =
      .ok ([("question", .text question)], rest) := by
  have hfield : QuestionPayload.fields.find? (·.name == "question") =
      some ⟨"question", .text, false⟩ := by decide
  have hcolon : Json.afterColon (some ':' :: some '"' :: quotedTail question rest) =
      .ok (some '"' :: quotedTail question rest) := by
    rw [Json.afterColon, skipSpace_cons _ (by decide)]
    rfl
  have hvalue : fieldValue .text (some '"' :: quotedTail question rest) =
      .ok (.text question, rest) := by
    rw [fieldValue, textValue_quotedTail]
    rfl
  simp [member, quoted?_quotedTail, Json.orNotJson, hfield, hcolon, hvalue, bind, Except.bind,
    pure, Except.pure]

/-- An object whose only member is the question. -/
lemma bodyFields_question :
    bodyFields QuestionPayload.fields
        (some '\x7b' :: some '"' :: quotedTail "question"
          (some ':' :: some '"' :: quotedTail question (some '\x7d' :: rest))) =
      .ok ([("question", .text question)], rest) := by
  have hmembers : ∀ limit steps, memberFields limit QuestionPayload.fields (steps + 1) []
      (some '"' :: quotedTail "question"
        (some ':' :: some '"' :: quotedTail question (some '\x7d' :: rest))) =
        .ok ([("question", .text question)], rest) := by
    intro limit steps
    rw [memberFields, skipSpace_cons _ (by decide)]
    simp only [member_question]
    rw [skipSpace_cons _ (by decide)]
    rfl
  have hspace : Json.isSpace (some '"') = false := by decide
  rw [bodyFields, skipSpace_cons _ (by decide)]
  simp [skipSpace_cons _ hspace, hmembers, Json.stepsFor]

end Reading

/-- The body is read as the question. -/
theorem ofBody_questionBytes (question : String) :
    QuestionPayload.ofBody (questionBytes question) = .ok ⟨question⟩ := by
  have hread : readBody QuestionPayload.fields (questionBytes question) =
      .ok [("question", .text question)] := by
    rw [readBody, symbolsOfBytes_questionBytes, bodyFields_question]
    rfl
  rw [QuestionPayload.ofBody, hread]
  rfl

/-! ## How long it gets -/

lemma length_escape_le (c : Char) : (Json.escape c).length ≤ 6 := by
  unfold Json.escape
  repeat' split
  all_goals simp

lemma length_escape_pos (c : Char) : 0 < (Json.escape c).length := by
  unfold Json.escape
  repeat' split
  all_goals simp

lemma le_length_flatMap_escape (cs : List Char) : cs.length ≤ (cs.flatMap Json.escape).length := by
  induction cs with
  | nil => simp
  | cons c cs ih =>
    have hc := length_escape_pos c
    rw [List.flatMap_cons, List.length_append, List.length_cons]
    omega

lemma length_flatMap_escape_le (cs : List Char) :
    (cs.flatMap Json.escape).length ≤ 6 * cs.length := by
  induction cs with
  | nil => simp
  | cons c cs ih =>
    have hc := length_escape_le c
    rw [List.flatMap_cons, List.length_append, List.length_cons]
    omega

/-- Fifteen characters stand around the question. -/
lemma length_chars_question (question : String) :
    (Json.chars (.object [("question", .string question)])).length =
      (question.toList.flatMap Json.escape).length + 15 := by
  have hname : (Json.quote "question").length = 10 := by decide
  simp only [Json.chars, Json.memberChars, Json.quote, List.length_append, List.length_cons,
    List.length_nil] at hname ⊢
  omega

theorem length_questionBytes_le (question : String) :
    (questionBytes question).length ≤ 4 * (6 * question.length + 15) := by
  have hescaped := length_flatMap_escape_le question.toList
  have hbytes := Text.length_utf8_le (Json.chars (.object [("question", .string question)]))
  rw [length_chars_question] at hbytes
  rw [String.length_toList] at hescaped
  rw [questionBytes]
  omega

theorem le_length_questionBytes (question : String) :
    question.length + 15 ≤ (questionBytes question).length := by
  have hescaped := le_length_flatMap_escape question.toList
  have hbytes := Text.le_length_utf8 (Json.chars (.object [("question", .string question)]))
  rw [length_chars_question] at hbytes
  rw [String.length_toList] at hescaped
  rw [questionBytes]
  omega

end RevenueDesk.Web
