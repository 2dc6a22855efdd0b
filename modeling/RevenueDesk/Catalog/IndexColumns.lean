/-
# The columns of an index

The database describes an index by the statement that creates it, such as
`CREATE INDEX i ON public.t USING btree (a, lower(b))`.  Its columns are the entries of the
first pair of parentheses, cut at the commas that stand in no further parentheses.
-/
import RevenueDesk.Text.Blank

namespace RevenueDesk.Catalog

/-- The entries up to the closing parenthesis.  `depth` counts the parentheses that are open
inside the first one; `current` is the entry so far, last character first, and `done` the
entries before it, last one first. -/
def entriesFrom? (depth : Nat) (current : List Char) (done : List (List Char)) :
    List Char → Option (List (List Char))
  | [] => none
  | c :: cs =>
    if c = '(' then entriesFrom? (depth + 1) (c :: current) done cs
    else if c = ')' then
      match depth with
      | 0 => some (current.reverse :: done).reverse
      | depth + 1 => entriesFrom? depth (c :: current) done cs
    else if c = ',' ∧ depth = 0 then entriesFrom? 0 [] (current.reverse :: done) cs
    else entriesFrom? depth (c :: current) done cs

/-- An entry without blanks and then without double quotes at both ends. -/
def columnName (entry : List Char) : List Char :=
  Text.dropEndWhile (· == '"') ((Text.trim entry).dropWhile (· == '"'))

/-- The columns that the definition of an index names, in order; empty entries are left
out, and so are all if the first parenthesis is never closed. -/
def indexColumns (definition : String) : List String :=
  match definition.toList.dropWhile (· != '(') with
  | [] => []
  | _ :: inner =>
    let entries := (entriesFrom? 0 [] [] inner).getD []
    ((entries.map columnName).filter (!·.isEmpty)).map String.ofList

end RevenueDesk.Catalog
