/-
# Reading JSON

A text is read strictly: one value, with blanks around its parts and nothing else after it.
Arrays and objects may be nested up to `maxDepth` deep.  Reading stops at the first thing
that is wrong, and tells what that is: the text is not JSON, or it is JSON of the wrong
shape.

A value can be read in two ways.

* *As it is written*: an object has its members as they stand, repeated names included
  (`written?`).
* *For what it denotes* (`parse?`): a repeated name keeps its first place and takes the last
  value, and an object whose first member has the name `embeddedName` stands for the value
  that another JSON text denotes.  That member has to be the only one, and the text is its
  value.  `denoted?` leads from the first reading to the second.

The readers take a number of steps that bounds their work.  Every step consumes a symbol,
so the length of the text is bound enough, and no caller sees the number.
-/
import RevenueDesk.Json.Lexeme

namespace RevenueDesk.Json

open Text (Symbol)

/-- How deep arrays and objects may be nested. -/
def maxDepth : Nat := 127

/-- What is wrong with a text. -/
inductive Fault where
  | notJson
  | wrongShape
deriving DecidableEq, Repr

abbrev Reading (α : Type) := Except Fault (α × List Symbol)

/-- What is read if the reader of a part succeeds. -/
def orNotJson {α : Type} : Option (α × List Symbol) → Reading α
  | some r => .ok r
  | none => .error .notJson

/-! ## Texts where a text has to stand -/

/-- The fault of a value that is not of the type asked for.  Texts, numbers and words are
read to their end first, arrays and objects are not. -/
def mistyped (cs : List Symbol) : Fault :=
  let shapeIf (b : Bool) : Fault := if b then .wrongShape else .notJson
  match cs with
  | some 'n' :: cs => shapeIf (word? ['u', 'l', 'l'] cs).isSome
  | some 't' :: cs => shapeIf (word? ['r', 'u', 'e'] cs).isSome
  | some 'f' :: cs => shapeIf (word? ['a', 'l', 's', 'e'] cs).isSome
  | some '"' :: cs => shapeIf (quoted? cs).isSome
  | some '[' :: _ => .wrongShape
  | some '\x7b' :: _ => .wrongShape
  | cs => shapeIf (number? cs).isSome

def textValue (cs : List Symbol) : Reading String :=
  match skipSpace cs with
  | some '"' :: cs => orNotJson (quoted? cs)
  | cs => .error (mistyped cs)

def afterColon (cs : List Symbol) : Except Fault (List Symbol) :=
  match skipSpace cs with
  | some ':' :: cs => .ok cs
  | _ => .error .notJson

/-! ## Embedded texts -/

/-- The name of the member that holds an embedded text. -/
def embeddedName : String := "$serde_json::private::RawValue"

/-- The symbols behind the name of the first member, if it is that of an embedded text. -/
def embeddedStart? : List Symbol → Option (List Symbol)
  | some '"' :: cs =>
    match quoted? cs with
    | some (name, rest) => if name = embeddedName then some rest else none
    | none => none
  | _ => none

/-- The rest of an object behind the name of an embedded text.  `inner` says what a text
denotes. -/
def embedded (inner : String → Option Json) (cs : List Symbol) : Reading Json :=
  match (afterColon cs).bind textValue with
  | .error e => .error e
  | .ok (text, cs) =>
    match inner text with
    | none => .error .wrongShape
    | some v =>
      match skipSpace cs with
      | some '\x7d' :: rest => .ok (v, rest)
      | _ => .error .notJson

/-! ## Values -/

/-- The members of an object without repeats. -/
def distinct (members : List (String × Json)) : List (String × Json) :=
  members.foldl (fun ms (name, v) => put ms name v) []

/-- A way of reading values. -/
structure Manner where
  /-- The number that a numeral denotes, unless it is beyond the range of the doubles. -/
  number : Numeral → Option JsonNumber
  /-- What embedded texts denote; nothing if objects are read as they are written. -/
  inner? : Option (String → Option Json)

namespace Manner

/-- As it is written. -/
def written : Manner := ⟨Numeral.number?, none⟩

/-- For what it denotes, given what embedded texts denote. -/
def denoted (inner : String → Option Json) : Manner := ⟨Numeral.number?, some inner⟩

def number? (manner : Manner) (cs : List Symbol) : Option (JsonNumber × List Symbol) := do
  let (n, cs) ← numeral? cs
  let v ← manner.number n
  some (v, cs)

def object (manner : Manner) (members : List (String × Json)) : Json :=
  match manner.inner? with
  | none => .object members
  | some _ => .object (distinct members)

/-- If objects are read for what they denote and the symbols begin with the name of an
embedded text: what to read the text with, and the symbols behind the name. -/
def embedded? (manner : Manner) (cs : List Symbol) :
    Option ((String → Option Json) × List Symbol) :=
  match manner.inner? with
  | none => none
  | some inner => (embeddedStart? cs).map fun rest => (inner, rest)

end Manner

mutual

/-- A value, in which `depth` levels of arrays and objects may stand in each other. -/
def value (manner : Manner) : (steps depth : Nat) → List Symbol → Reading Json
  | 0, _, _ => .error .notJson
  | steps + 1, depth, cs =>
    match skipSpace cs with
    | some 'n' :: cs => orNotJson ((word? ['u', 'l', 'l'] cs).map fun rest => (.null, rest))
    | some 't' :: cs => orNotJson ((word? ['r', 'u', 'e'] cs).map fun rest => (.bool true, rest))
    | some 'f' :: cs =>
      orNotJson ((word? ['a', 'l', 's', 'e'] cs).map fun rest => (.bool false, rest))
    | some '"' :: cs => orNotJson ((quoted? cs).map fun (s, rest) => (.string s, rest))
    | some '[' :: cs =>
      match depth with
      | 0 => .error .notJson
      | depth + 1 =>
        match skipSpace cs with
        | some ']' :: rest => .ok (.array [], rest)
        | cs => (itemList manner steps depth [] cs).map fun (xs, rest) => (.array xs, rest)
    | some '\x7b' :: cs =>
      match depth with
      | 0 => .error .notJson
      | depth + 1 =>
        match skipSpace cs with
        | some '\x7d' :: rest => .ok (.object [], rest)
        | cs =>
          match manner.embedded? cs with
          | some (inner, cs) => embedded inner cs
          | none =>
            (memberList manner steps depth [] cs).map fun (ms, rest) => (manner.object ms, rest)
    | cs => orNotJson ((manner.number? cs).map fun (n, rest) => (.number n, rest))

/-- The items of an array up to its closing bracket, where an item has to stand; `acc`
holds those before, last one first. -/
def itemList (manner : Manner) : (steps depth : Nat) → (acc : List Json) → List Symbol →
    Reading (List Json)
  | 0, _, _, _ => .error .notJson
  | steps + 1, depth, acc, cs =>
    match value manner steps depth cs with
    | .error e => .error e
    | .ok (v, cs) =>
      match skipSpace cs with
      | some ',' :: cs => itemList manner steps depth (v :: acc) cs
      | some ']' :: cs => .ok ((v :: acc).reverse, cs)
      | _ => .error .notJson

/-- The members of an object up to its closing brace, where a member has to stand, repeats
included; `acc` holds those before, last one first. -/
def memberList (manner : Manner) : (steps depth : Nat) → (acc : List (String × Json)) →
    List Symbol → Reading (List (String × Json))
  | 0, _, _, _ => .error .notJson
  | steps + 1, depth, acc, cs =>
    match skipSpace cs with
    | some '"' :: cs =>
      match quoted? cs with
      | none => .error .notJson
      | some (name, cs) =>
        match skipSpace cs with
        | some ':' :: cs =>
          match value manner steps depth cs with
          | .error e => .error e
          | .ok (v, cs) =>
            match skipSpace cs with
            | some ',' :: cs => memberList manner steps depth ((name, v) :: acc) cs
            | some '\x7d' :: cs => .ok (((name, v) :: acc).reverse, cs)
            | _ => .error .notJson
        | _ => .error .notJson
    | _ => .error .notJson

end

/-! ## Texts -/

/-- Enough steps for a text. -/
def stepsFor (cs : List Symbol) : Nat := cs.length + 1

def atEnd (cs : List Symbol) : Bool := (skipSpace cs).isEmpty

/-- What is read, if nothing but blanks follows. -/
def whole? {α : Type} : Reading α → Option α
  | .ok (a, rest) => if atEnd rest then some a else none
  | .error _ => none

/-- The value that a text is, read in some manner. -/
def read? (manner : Manner) (s : String) : Option Json :=
  let cs := Text.symbolsOf s
  whole? (value manner (stepsFor cs) maxDepth cs)

/-- The value that a text is, as it is written. -/
def written? (s : String) : Option Json := read? .written s

/-- The value that a text denotes in which embedded texts stand in each other up to `levels`
deep. -/
def parseWithin? : (levels : Nat) → String → Option Json
  | 0, _ => none
  | levels + 1, s => read? (.denoted (parseWithin? levels)) s

/-- The value that a text denotes.  An embedded text is shorter than the text that it stands
in, so the length bounds how deep they stand in each other. -/
def parse? (s : String) : Option Json := parseWithin? (s.length + 1) s

/-- The manner in which values are read for what they denote. -/
def Manner.full : Manner := .denoted parse?

/-! ## From what is written to what it denotes -/

/-- The members are those of an embedded text, as far as the first name tells. -/
def isEmbedded : List (String × Json) → Bool
  | [] => false
  | (name, _) :: _ => name == embeddedName

/-- The embedded text, if it is the only member. -/
def embeddedText? : List (String × Json) → Option String
  | [(_, .string text)] => some text
  | _ => none

mutual

/-- What a value denotes that has been read as it is written. -/
def denoted? : Json → Option Json
  | .array xs => (denotedItems? xs).map .array
  | .object ms =>
    if isEmbedded ms then (embeddedText? ms).bind parse?
    else (denotedMembers? ms).map fun ms => .object (distinct ms)
  | v => some v

def denotedItems? : List Json → Option (List Json)
  | [] => some []
  | x :: xs =>
    match denoted? x, denotedItems? xs with
    | some x, some xs => some (x :: xs)
    | _, _ => none

def denotedMembers? : List (String × Json) → Option (List (String × Json))
  | [] => some []
  | (name, v) :: ms =>
    match denoted? v, denotedMembers? ms with
    | some v, some ms => some ((name, v) :: ms)
    | _, _ => none

end

end RevenueDesk.Json
