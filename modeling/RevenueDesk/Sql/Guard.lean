/-
# The guard

Before a query from a client is run, its text is checked.  The check looks at a normal form
of the text: without comments, and with one space between its pieces.  It refuses, in this
order, a text with a word that could change the database, one that does not begin with
`SELECT` or `WITH`, one whose parentheses do not match in number, one with a semicolon left
in it, and one with an open comment or a `UNION SELECT`.
-/
import RevenueDesk.Sql.Token
import RevenueDesk.Text.Word

namespace RevenueDesk.Sql

/-! ## Normal form -/

/-- A text without its line comments; `inside` says that it begins inside one. -/
def dropLineComments (inside : Bool) : List Char → List Char
  | [] => []
  | [c] => if inside && c != '\n' then [] else [c]
  | c :: d :: cs =>
    if inside then
      if c = '\n' then c :: dropLineComments false (d :: cs) else dropLineComments true (d :: cs)
    else if c = '-' ∧ d = '-' then dropLineComments true cs
    else c :: dropLineComments false (d :: cs)

/-- A text without its block comments; one that is never closed stays. -/
def dropBlockComments : List Char → List Char
  | [] => []
  | [c] => [c]
  | c :: d :: cs =>
    if c = '/' ∧ d = '*' then
      match _h : closeComment? cs with
      | some (_, rest) => dropBlockComments rest
      | none => c :: d :: cs
    else c :: dropBlockComments (d :: cs)
termination_by cs => cs.length
decreasing_by
  · have := congrArg List.length (closeComment?_eq _h)
    simp only [List.length_append, List.length_cons] at this ⊢
    omega
  · simp

/-- The text that is checked: without comments, one space between two pieces. -/
def normalize (sql : List Char) : List Char :=
  Text.spaced (Text.pieces (dropBlockComments (dropLineComments false sql)))

/-- A text without blanks around it and without semicolons at its end. -/
def stripTerminator (sql : List Char) : List Char :=
  Text.dropEndWhile (fun c => c == ';' || Text.isBlank c) (Text.trim sql)

/-! ## What is looked for -/

def dangerousWords : List String :=
  ["drop", "delete", "truncate", "alter", "create", "insert", "update", "grant", "revoke",
    "exec", "execute"]

/-- The first dangerous word of a text, as it is written there. -/
def dangerousWord? (text : List Char) : Option (List Char) :=
  (Text.words text).find? fun word => dangerousWords.any fun d => Text.sameWord d word

/-- The rest of a text that begins with at least one blank, behind all of them. -/
def dropBlanks? (text : List Char) : Option (List Char) :=
  match text with
  | [] => none
  | c :: cs => if Text.isBlank c then some (cs.dropWhile Text.isBlank) else none

/-- The text begins with the word and a blank. -/
def beginsWith (word : String) (text : List Char) : Bool :=
  ((Text.dropWord? word.toList text).bind dropBlanks?).isSome

/-- The text begins like a query that only reads. -/
def isReadStatement (text : List Char) : Bool :=
  beginsWith "select" text || beginsWith "with" text

/-- Some end of the text, the whole and the empty one included, satisfies `p`. -/
def anyEnd (p : List Char → Bool) : List Char → Bool
  | [] => p []
  | c :: cs => p (c :: cs) || anyEnd p cs

def selectHere (text : List Char) : Bool := (Text.dropWord? "select".toList text).isSome

/-- The text begins with `UNION` and, behind blanks, `SELECT`; there may be an `ALL` between
them. -/
def unionSelectHere (text : List Char) : Bool :=
  match (Text.dropWord? "union".toList text).bind dropBlanks? with
  | none => false
  | some rest =>
    match (Text.dropWord? "all".toList rest).bind dropBlanks? with
    | some rest' => selectHere rest' || selectHere rest
    | none => selectHere rest

def commentHere (text : List Char) : Bool := (Text.dropStart? ['/', '*'] text).isSome

/-! ## The check -/

/-- Why a query is refused. -/
inductive Refusal where
  | empty
  /-- A dangerous word, in capitals. -/
  | dangerous (word : List Char)
  /-- It does not begin like a query that reads. -/
  | notRead
  /-- There are not as many closing as opening parentheses. -/
  | unbalanced
  | several
  /-- There is an open comment or a `UNION SELECT`. -/
  | suspicious
deriving DecidableEq, Repr

def Refusal.message : Refusal → String
  | empty => "Query cannot be empty"
  | dangerous word =>
    "Dangerous SQL keyword '" ++ String.ofList word
      ++ "' is not allowed. Only SELECT queries are permitted."
  | notRead => "Only SELECT queries are allowed"
  | unbalanced => "Unbalanced parentheses in query"
  | several => "Multiple statements are not allowed"
  | suspicious => "Potentially malicious SQL pattern detected"

/-- Why a text in normal form is refused, if it is. -/
def refusalOfNormal (text : List Char) : Option Refusal :=
  match dangerousWord? text with
  | some word => some (.dangerous (Text.upper word))
  | none =>
    if !isReadStatement text then some .notRead
    else if text.count '(' ≠ text.count ')' then some .unbalanced
    else if text.contains ';' then some .several
    else if anyEnd commentHere text || anyEnd unionSelectHere text then some .suspicious
    else none

def refusal? (sql : List Char) : Option Refusal :=
  if sql.all Text.isBlank then some .empty
  else refusalOfNormal (normalize (stripTerminator sql))

def accepts (sql : List Char) : Bool := (refusal? sql).isNone

end RevenueDesk.Sql
