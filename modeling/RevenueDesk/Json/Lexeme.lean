/-
# The parts of a JSON text

The blanks, fixed words, quoted texts and numbers that a JSON text is made of.  Each reader
takes a list of symbols and gives what it has read and the symbols after it, or nothing if
the text does not begin with such a part.

* `word?` reads a fixed word, of which the first letter has been read;
* `quoted?` reads a quoted text behind its opening quote, and `skipQuoted?` passes over one
  without asking whether its characters and its escaped surrogates make sense;
* `numeral?` reads a number as its digits, and `Numeral.number?` is the number they denote.
-/
import RevenueDesk.Json.Value
import RevenueDesk.Number.Digits
import RevenueDesk.Number.Scaled
import RevenueDesk.Text.Symbol

namespace RevenueDesk.Json

open Text (Symbol)

/-- One of the four blanks that may stand between the parts. -/
def isSpace : Symbol → Bool
  | some c => c == ' ' || c == '\t' || c == '\n' || c == '\r'
  | none => false

def skipSpace (cs : List Symbol) : List Symbol := cs.dropWhile isSpace

/-- The symbols behind the word `w`. -/
def word? : List Char → List Symbol → Option (List Symbol)
  | [], cs => some cs
  | w :: ws, some c :: cs => if c = w then word? ws cs else none
  | _ :: _, _ => none

/-! ## Quoted texts -/

/-- The character that a backslash and this one stand for. -/
def unescape? (c : Char) : Option Char :=
  if c = '"' then some '"'
  else if c = '\\' then some '\\'
  else if c = '/' then some '/'
  else if c = 'b' then some '\x08'
  else if c = 'f' then some '\x0c'
  else if c = 'n' then some '\n'
  else if c = 'r' then some '\r'
  else if c = 't' then some '\t'
  else none

/-- Where a reader stands inside a quoted text. -/
inductive QuoteState where
  | plain
  | escaped
  /-- Inside a four-digit escape: `left + 1` digits are missing, those before make up
  `value`; `high` is the leading surrogate before it, if there is one. -/
  | hex (left value : Nat) (high : Option Nat)
  /-- Behind a leading surrogate, where the escape of its partner has to begin. -/
  | partner (high : Nat)
  /-- The same, behind the backslash. -/
  | partnerEscaped (high : Nat)

/-- What a complete four-digit escape gives: a character, or the state in which its partner
is awaited.  A surrogate without its partner is refused. -/
def unit? (high : Option Nat) (u : Nat) : Option (Option Char × QuoteState) :=
  match high with
  | none =>
    if 0xD800 ≤ u ∧ u < 0xDC00 then some (none, .partner u)
    else if 0xDC00 ≤ u ∧ u < 0xE000 then none
    else some (some (Char.ofNat u), .plain)
  | some h =>
    if 0xDC00 ≤ u ∧ u < 0xE000 then
      some (some (Char.ofNat (0x10000 + (h - 0xD800) * 0x400 + (u - 0xDC00))), .plain)
    else none

/-- Read on inside a quoted text; `acc` holds the characters so far, last one first. -/
def quotedFrom? (acc : List Char) : QuoteState → List Symbol → Option (List Char × List Symbol)
  | _, [] => none
  | _, none :: _ => none
  | .plain, some c :: cs =>
    if c = '"' then some (acc.reverse, cs)
    else if c = '\\' then quotedFrom? acc .escaped cs
    else if c.toNat < 0x20 then none
    else quotedFrom? (c :: acc) .plain cs
  | .escaped, some c :: cs =>
    if c = 'u' then quotedFrom? acc (.hex 3 0 none) cs
    else match unescape? c with
      | some d => quotedFrom? (d :: acc) .plain cs
      | none => none
  | .hex left value high, some c :: cs =>
    match Digits.hexValue? c with
    | none => none
    | some d =>
      match left with
      | left + 1 => quotedFrom? acc (.hex left (value * 16 + d) high) cs
      | 0 =>
        match unit? high (value * 16 + d) with
        | none => none
        | some (some c, state) => quotedFrom? (c :: acc) state cs
        | some (none, state) => quotedFrom? acc state cs
  | .partner high, some c :: cs =>
    if c = '\\' then quotedFrom? acc (.partnerEscaped high) cs else none
  | .partnerEscaped high, some c :: cs =>
    if c = 'u' then quotedFrom? acc (.hex 3 0 (some high)) cs else none

def quoted? (cs : List Symbol) : Option (String × List Symbol) :=
  (quotedFrom? [] .plain cs).map fun (text, rest) => (String.ofList text, rest)

/-- Where a reader stands that passes over a quoted text: between characters, behind a
backslash, or before that many hexadecimal digits. -/
inductive SkipState where
  | plain
  | escaped
  | hex (left : Nat)

def skipQuotedFrom? : SkipState → List Symbol → Option (List Symbol)
  | _, [] => none
  | .plain, none :: cs => skipQuotedFrom? .plain cs
  | .plain, some c :: cs =>
    if c = '"' then some cs
    else if c = '\\' then skipQuotedFrom? .escaped cs
    else if c.toNat < 0x20 then none
    else skipQuotedFrom? .plain cs
  | .escaped, some c :: cs =>
    if c = 'u' then skipQuotedFrom? (.hex 3) cs
    else if (unescape? c).isSome then skipQuotedFrom? .plain cs
    else none
  | .hex left, some c :: cs =>
    if (Digits.hexValue? c).isNone then none
    else match left with
      | left + 1 => skipQuotedFrom? (.hex left) cs
      | 0 => skipQuotedFrom? .plain cs
  | _, none :: _ => none

def skipQuoted? (cs : List Symbol) : Option (List Symbol) := skipQuotedFrom? .plain cs

/-! ## Numbers -/

structure Numeral where
  negative : Bool
  /-- The digits before the point; at least one. -/
  whole : List Nat
  fraction : List Nat
  exponent : Int
  /-- There is neither a point nor an exponent. -/
  plain : Bool

/-- The digits that a text begins with, behind those in `acc`, and the rest. -/
def digitsFrom (acc : List Nat) : List Symbol → List Nat × List Symbol
  | [] => (acc.reverse, [])
  | none :: cs => (acc.reverse, none :: cs)
  | some c :: cs =>
    match Digits.digitValue? c with
    | some d => digitsFrom (d :: acc) cs
    | none => (acc.reverse, some c :: cs)

/-- The digits that a text begins with, at least one of them, and the rest. -/
def digits? (cs : List Symbol) : Option (List Nat × List Symbol) :=
  match digitsFrom [] cs with
  | ([], _) => none
  | (d :: ds, rest) => some (d :: ds, rest)

/-- An exponent beyond this one, in magnitude, is taken for this one; with either of them
every number is zero or out of range. -/
def largestExponent : Nat := 1000000000

/-- The optional fraction of a number. -/
def fraction? : List Symbol → Option (Option (List Nat) × List Symbol)
  | some '.' :: cs => (digits? cs).map fun (ds, rest) => (some ds, rest)
  | cs => some (none, cs)

def exponentValue (ds : List Nat) : Nat :=
  ds.foldl (fun e d => min (e * 10 + d) largestExponent) 0

/-- The sign of an exponent: whether it is a minus sign. -/
def exponentSign : List Symbol → Bool × List Symbol
  | some '-' :: cs => (true, cs)
  | some '+' :: cs => (false, cs)
  | cs => (false, cs)

/-- The optional exponent of a number. -/
def exponent? : List Symbol → Option (Option Int × List Symbol)
  | some c :: cs =>
    if c = 'e' ∨ c = 'E' then
      let (negative, cs) := exponentSign cs
      (digits? cs).map fun (ds, rest) =>
        (some (if negative then -(exponentValue ds : Int) else exponentValue ds), rest)
    else some (none, some c :: cs)
  | cs => some (none, cs)

/-- A number: an optional minus sign, digits without a leading zero, and the two optional
parts. -/
def numeral? (cs : List Symbol) : Option (Numeral × List Symbol) := do
  let (negative, cs) := match cs with
    | some '-' :: cs => (true, cs)
    | cs => (false, cs)
  let (whole, cs) ← digits? cs
  if whole.head? = some 0 ∧ 1 < whole.length then none
  else
    let (fraction, cs) ← fraction? cs
    let (exponent, cs) ← exponent? cs
    some (
      { negative := negative
        whole := whole
        fraction := fraction.getD []
        exponent := exponent.getD 0
        plain := fraction.isNone && exponent.isNone }, cs)

/-- The double that a numeral denotes, if it is within range. -/
def Numeral.real? (n : Numeral) : Option JsonNumber :=
  (Binary64.ofDigits? n.whole n.fraction n.exponent).map fun x =>
    .real (if n.negative then x.neg else x)

/-- The whole number that a plain numeral denotes, if it is one of those that are not
doubles.  Minus zero is a double. -/
def Numeral.whole? (n : Numeral) : Option Int :=
  if n.plain ∧ n.whole.length ≤ 20 then
    let v := Digits.valueFrom 0 n.whole
    if n.negative then
      if 0 < v ∧ JsonNumber.leastWhole ≤ -(v : Int) then some (-(v : Int)) else none
    else if (v : Int) ≤ JsonNumber.largestWhole then some v else none
  else none

/-- The number that a numeral denotes; nothing if it is beyond the range of the doubles. -/
def Numeral.number? (n : Numeral) : Option JsonNumber :=
  match n.whole? with
  | some v => some (.whole v)
  | none => n.real?

def number? (cs : List Symbol) : Option (JsonNumber × List Symbol) := do
  let (n, cs) ← numeral? cs
  let v ← n.number?
  some (v, cs)

end RevenueDesk.Json
