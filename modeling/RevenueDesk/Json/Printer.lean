/-
# Writing JSON

The compact form of a value: no blanks, members in their order, text in quotes with only
the quote, the backslash and the control characters below U+0020 escaped.  Doubles are the
shortest decimals that read back, positional from `10 ^ -5` up to but not including
`10 ^ 16`.
-/
import RevenueDesk.Json.Value
import RevenueDesk.Number.Shortest

namespace RevenueDesk.Json

/-- How doubles are written. -/
def realFormat : NumberFormat := ⟨-5, 16⟩

/-- A hexadecimal digit, in small letters. -/
def hexChar (d : Nat) : Char := Char.ofNat (if d < 10 then 48 + d else 87 + d)

def escape (c : Char) : List Char :=
  if c = '"' then ['\\', '"']
  else if c = '\\' then ['\\', '\\']
  else if c = '\x08' then ['\\', 'b']
  else if c = '\x0c' then ['\\', 'f']
  else if c = '\n' then ['\\', 'n']
  else if c = '\r' then ['\\', 'r']
  else if c = '\t' then ['\\', 't']
  else if c.toNat < 0x20 then ['\\', 'u', '0', '0', hexChar (c.toNat / 16), hexChar (c.toNat % 16)]
  else [c]

def quote (s : String) : List Char :=
  '"' :: s.toList.flatMap escape ++ ['"']

def numberText : JsonNumber → List Char
  | .whole n => Digits.intNumeral n
  | .real x => realFormat.text x

mutual

def chars : Json → List Char
  | .null => ['n', 'u', 'l', 'l']
  | .bool true => ['t', 'r', 'u', 'e']
  | .bool false => ['f', 'a', 'l', 's', 'e']
  | .number n => numberText n
  | .string s => quote s
  | .array items => '[' :: itemChars items ++ [']']
  | .object members => '\x7b' :: memberChars members ++ ['\x7d']

/-- The items of an array, a comma between two of them. -/
def itemChars : List Json → List Char
  | [] => []
  | [v] => chars v
  | v :: vs => chars v ++ ',' :: itemChars vs

/-- The members of an object, a comma between two of them. -/
def memberChars : List (String × Json) → List Char
  | [] => []
  | [(name, v)] => quote name ++ ':' :: chars v
  | (name, v) :: ms => quote name ++ ':' :: chars v ++ ',' :: memberChars ms

end

/-- The compact text of a value. -/
def compact (v : Json) : String := String.ofList (chars v)

end RevenueDesk.Json
