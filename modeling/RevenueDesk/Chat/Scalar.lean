/-
# Showing a single value

How the chat shows an answer that is a single value: a whole number in groups of three
digits, any other number with at most two decimal places, a text as it is, and everything
else as JSON.
-/
import RevenueDesk.Json.Printer
import RevenueDesk.Number.FixedPlaces

namespace RevenueDesk.Chat

/-- A row of digits with a comma before every third digit from the right. -/
def grouped : List Char → List Char
  | [] => []
  | c :: cs => if cs ≠ [] ∧ cs.length % 3 = 0 then c :: ',' :: grouped cs else c :: grouped cs

def places : Nat := 2

/-- A row of decimal places without the zeros at its end. -/
def trimZeros (cs : List Char) : List Char := (cs.reverse.dropWhile (· == '0')).reverse

/-- A signed number of hundredths: no zeros at the end, no point without a digit behind it,
and no sign on zero. -/
def hundredths (negative : Bool) (units : Nat) : List Char :=
  let whole := FixedPlaces.whole places units
  let fraction := trimZeros (FixedPlaces.fraction places units)
  if units = 0 then ['0']
  else
    (if negative then ['-'] else []) ++ grouped (Digits.numeral whole)
      ++ if fraction.isEmpty then [] else '.' :: fraction

/-- An integer in groups of three digits. -/
def formatInt (n : Int) : List Char :=
  if n < 0 then '-' :: grouped (Digits.numeral n.natAbs) else grouped (Digits.numeral n.natAbs)

/-- A double, rounded to two decimal places. -/
def formatReal (x : Binary64) : List Char :=
  hundredths x.negative (FixedPlaces.units places x)

/-- A number.  One that does not fit the signed type is shown through its double. -/
def formatNumber (n : JsonNumber) : List Char :=
  match n.toSigned? with
  | some i => formatInt i
  | none => formatReal n.toBinary64

/-- A value as the chat shows it. -/
def formatScalar : Json → String
  | .number n => String.ofList (formatNumber n)
  | .string s => s
  | .null => "N/A"
  | v => v.compact

end RevenueDesk.Chat
