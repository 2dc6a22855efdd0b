/-
# Reading back what is written

The compact text of an object with a single member whose value is a text is read back as
this object, as it is written and for what it denotes.  Whatever stands in the text, no part
of it is taken for the end of the text or for another member, because `quoted?_quote` reads a
quoted text up to its own closing quote.

The name of the member must not be that of an embedded text: such an object is read for the
value that its text denotes.
-/
import Mathlib.Tactic.Common
import RevenueDesk.Json.Quoted
import RevenueDesk.Json.Reader

namespace RevenueDesk.Json

open Text (Symbol)

section Parts

variable (manner : Manner) (steps depth : Nat) (name text : String) (rest : List Symbol)

/-- A quoted text behind its opening quote, and what follows it. -/
def quotedTail (text : String) (rest : List Symbol) : List Symbol :=
  (text.toList.flatMap escape ++ ['"']).map some ++ rest

lemma quoted?_quotedTail : quoted? (quotedTail text rest) = some (text, rest) :=
  quoted?_quote text rest

/-- A character that is no blank stays in front. -/
lemma skipSpace_cons {c : Char} (h : isSpace (some c) = false) :
    skipSpace (some c :: rest) = some c :: rest := by
  simp [skipSpace, h]

lemma value_quotedTail :
    value manner (steps + 1) depth (some '"' :: quotedTail text rest) =
      .ok (.string text, rest) := by
  rw [value, skipSpace_cons _ (by decide)]
  simp [quoted?_quotedTail, orNotJson]

/-- The last member of an object, a text. -/
lemma memberList_quotedTail (acc : List (String × Json)) :
    memberList manner (steps + 2) depth acc
        (some '"' :: quotedTail name
          (some ':' :: some '"' :: quotedTail text (some '\x7d' :: rest))) =
      .ok (((name, .string text) :: acc).reverse, rest) := by
  rw [memberList, skipSpace_cons _ (by decide)]
  simp only [quoted?_quotedTail]
  rw [skipSpace_cons _ (by decide)]
  simp only [value_quotedTail]
  rw [skipSpace_cons _ (by decide)]
  rfl

/-- The first member is not taken for an embedded text. -/
lemma embedded?_quotedTail {name : String} (hname : name ≠ embeddedName) :
    manner.embedded? (some '"' :: quotedTail name rest) = none := by
  unfold Manner.embedded?
  split
  · rfl
  · simp [embeddedStart?, quoted?_quotedTail, hname]

lemma object_singleton (v : Json) : manner.object [(name, v)] = .object [(name, v)] := by
  unfold Manner.object
  split <;> simp [distinct, put, Keyed.update]

lemma symbolsOf_textObject :
    Text.symbolsOf (compact (.object [(name, .string text)])) =
      some '\x7b' :: some '"' :: quotedTail name
        (some ':' :: some '"' :: quotedTail text [some '\x7d']) := by
  simp [Text.symbolsOf, compact, chars, memberChars, quote, quotedTail]

end Parts

section Objects

variable (manner : Manner) {name : String} (hname : name ≠ embeddedName) (text : String)
include hname

/-- An object with a text as its only member is read up to its brace. -/
lemma value_textObject (steps depth : Nat) (rest : List Symbol) :
    value manner (steps + 3) (depth + 1) (some '\x7b' :: some '"' :: quotedTail name
        (some ':' :: some '"' :: quotedTail text (some '\x7d' :: rest))) =
      .ok (.object [(name, .string text)], rest) := by
  have hspace : isSpace (some '"') = false := by decide
  rw [value, skipSpace_cons _ (by decide)]
  simp [skipSpace_cons _ hspace, embedded?_quotedTail _ _ hname, memberList_quotedTail,
    Except.map, object_singleton]

/-- Such an object is read back; its braces and quotes alone are steps enough. -/
lemma read?_textObject :
    read? manner (compact (.object [(name, .string text)])) =
      some (.object [(name, .string text)]) := by
  rw [read?, symbolsOf_textObject]
  obtain ⟨steps, hsteps⟩ : ∃ steps, stepsFor (some '\x7b' :: some '"' :: quotedTail name
      (some ':' :: some '"' :: quotedTail text [some '\x7d'])) = steps + 3 := ⟨_, rfl⟩
  have hdepth : maxDepth = 126 + 1 := rfl
  rw [hsteps, hdepth, value_textObject manner hname]
  simp [whole?, atEnd, skipSpace]

theorem written?_textObject :
    written? (compact (.object [(name, .string text)])) =
      some (.object [(name, .string text)]) := by
  rw [written?, read?_textObject _ hname]

theorem parse?_textObject :
    parse? (compact (.object [(name, .string text)])) =
      some (.object [(name, .string text)]) := by
  rw [parse?, parseWithin?, read?_textObject _ hname]

end Objects

end RevenueDesk.Json
