/-
# Passing over a value

A value that nobody asks for is passed over without being built.  Its grammar is checked
and nothing else: it may be nested to any depth, its numbers may be of any size, and its
texts may hold bytes and surrogates that make no character.
-/
import RevenueDesk.Json.Lexeme

namespace RevenueDesk.Json

open Text (Symbol)

/-- The brackets that a value can be inside of. -/
inductive Bracket where
  | array
  | object
deriving DecidableEq

/-- What has to come next. -/
inductive SkimState where
  | value
  | member
  /-- What may follow a value. -/
  | after

/-- Pass over the symbols up to the end of the outermost value; `opened` holds the brackets
that are not closed yet, innermost first. -/
def skimFrom? : (steps : Nat) → SkimState → (opened : List Bracket) → List Symbol →
    Option (List Symbol)
  | 0, _, _, _ => none
  | steps + 1, .value, opened, cs =>
    match skipSpace cs with
    | some 'n' :: cs =>
      match word? ['u', 'l', 'l'] cs with
      | some rest => skimFrom? steps .after opened rest
      | none => none
    | some 't' :: cs =>
      match word? ['r', 'u', 'e'] cs with
      | some rest => skimFrom? steps .after opened rest
      | none => none
    | some 'f' :: cs =>
      match word? ['a', 'l', 's', 'e'] cs with
      | some rest => skimFrom? steps .after opened rest
      | none => none
    | some '"' :: cs =>
      match skipQuoted? cs with
      | some rest => skimFrom? steps .after opened rest
      | none => none
    | some '[' :: cs =>
      match skipSpace cs with
      | some ']' :: rest => skimFrom? steps .after opened rest
      | cs => skimFrom? steps .value (.array :: opened) cs
    | some '\x7b' :: cs =>
      match skipSpace cs with
      | some '\x7d' :: rest => skimFrom? steps .after opened rest
      | cs => skimFrom? steps .member (.object :: opened) cs
    | cs =>
      match numeral? cs with
      | some (_, rest) => skimFrom? steps .after opened rest
      | none => none
  | steps + 1, .member, opened, cs =>
    match skipSpace cs with
    | some '"' :: cs =>
      match skipQuoted? cs with
      | none => none
      | some cs =>
        match skipSpace cs with
        | some ':' :: cs => skimFrom? steps .value opened cs
        | _ => none
    | _ => none
  | _ + 1, .after, [], cs => some cs
  | steps + 1, .after, bracket :: opened, cs =>
    match bracket, skipSpace cs with
    | .array, some ',' :: cs => skimFrom? steps .value (.array :: opened) cs
    | .array, some ']' :: cs => skimFrom? steps .after opened cs
    | .object, some ',' :: cs => skimFrom? steps .member (.object :: opened) cs
    | .object, some '\x7d' :: cs => skimFrom? steps .after opened cs
    | _, _ => none

/-- The symbols behind the value that a text begins with; one step for each of its symbols
and one more are always enough. -/
def skim? (steps : Nat) (cs : List Symbol) : Option (List Symbol) :=
  skimFrom? steps .value [] cs

end RevenueDesk.Json
