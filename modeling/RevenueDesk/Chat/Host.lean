/-
# Hosts

The part of an address that says which machine is meant: a *name*, an *IPv4 address*, or an
*IPv6 address* in brackets.

* An IPv4 address is up to four numbers with dots between them.  Each is decimal, octal
  behind a `0`, or hexadecimal behind `0x`; the last one fills what the others leave.  A
  name whose last part is a number has to be one.
* An IPv6 address is eight groups of up to four hexadecimal digits, with colons between
  them.  Two colons side by side stand for missing groups, once, and the last two groups may
  have the form of four decimal numbers.
* Any other name is made of letters, digits and some marks.  Each character may be written
  as the bytes of its UTF-8 form, each with a percent sign.

Names with characters of other scripts, and names with a part that begins with `xn--` and
stands for one, follow rules of their own.  These are tables of Unicode, and come as a value.
-/
import RevenueDesk.Number.Digits
import RevenueDesk.Text.Blank
import RevenueDesk.Text.Letter
import RevenueDesk.Text.Symbol

namespace RevenueDesk.Chat

/-- The rules for names of other scripts: what they make of the bytes of a name, if they let
it pass, is its form in ASCII. -/
abbrev NameRules := List UInt8 → Option (List Char)

inductive Host where
  | name (text : List Char)
  | ipv4 (number : Nat)
  /-- The eight groups of an IPv6 address. -/
  | ipv6 (groups : List Nat)
deriving DecidableEq, Inhabited, Repr

namespace Host

/-- The number that a row of digits denotes to a base of at most 16; zero for none. -/
def numberIn? (base : Nat) (cs : List Char) : Option Nat :=
  cs.foldlM (fun value c => ((Digits.hexValue? c).filter (· < base)).map (value * base + ·)) 0

/-! ## IPv4 addresses -/

def ipv4Number? : List Char → Option Nat
  | [] => none
  | '0' :: c :: cs => if c = 'x' ∨ c = 'X' then numberIn? 16 cs else numberIn? 8 (c :: cs)
  | cs => numberIn? 10 cs

/-- The parts of a name between its dots; a dot at the end does not count. -/
def parts (name : List Char) : List (List Char) :=
  let ps := Text.splitWhere (· == '.') name
  if 1 < ps.length ∧ ps.getLast? = some [] then ps.dropLast else ps

/-- The last part is a number, or at least a row of decimal digits. -/
def endsInNumber (ps : List (List Char)) : Bool :=
  ps.getLast?.any fun p => (!p.isEmpty && p.all Text.isDigit) || (ipv4Number? p).isSome

/-- The address that the parts of a name are. -/
def ipv4? (ps : List (List Char)) : Option Nat := do
  let numbers ← ps.mapM ipv4Number?
  let last ← numbers.getLast?
  let others := numbers.dropLast
  let left := Nat.pow 256 (4 - others.length)
  if others.length ≤ 3 ∧ (∀ n ∈ others, n < 256) ∧ last < left then
    some (others.foldl (fun value n => value * 256 + n) 0 * left + last)
  else none

/-! ## IPv6 addresses -/

def group? (cs : List Char) : Option Nat :=
  if cs.isEmpty ∨ 4 < cs.length then none else numberIn? 16 cs

/-- A decimal number up to 255 without a zero in front. -/
def octet? (cs : List Char) : Option Nat :=
  if cs = [] ∨ (1 < cs.length ∧ cs.head? = some '0') then none
  else (numberIn? 10 cs).filter (· < 256)

/-- The two groups that four decimal numbers stand for. -/
def dotted? (cs : List Char) : Option (List Nat) :=
  match (Text.splitWhere (· == '.') cs).mapM octet? with
  | some [a, b, c, d] => some [a * 256 + b, c * 256 + d]
  | _ => none

/-- The groups of a text without two colons side by side; `closing` says that it is the end
of the address. -/
def groups? (closing : Bool) (cs : List Char) : Option (List Nat) :=
  if cs.isEmpty then some []
  else do
    let written := Text.splitWhere (· == ':') cs
    let front ← written.dropLast.mapM group?
    let last ← written.getLast?
    match group? last with
    | some g => some (front ++ [g])
    | none => if closing then (dotted? last).map (front ++ ·) else none

/-- What stands before and behind the first two colons side by side. -/
def gap? : List Char → Option (List Char × List Char)
  | [] => none
  | [_] => none
  | c :: d :: cs =>
    if c = ':' ∧ d = ':' then some ([], cs)
    else (gap? (d :: cs)).map fun (before, behind) => (c :: before, behind)

def ipv6? (cs : List Char) : Option (List Nat) :=
  match gap? cs with
  | none => (groups? true cs).filter (·.length = 8)
  | some (before, behind) => do
    let front ← groups? false before
    let back ← groups? true behind
    let missing := 8 - (front.length + back.length)
    if 0 < missing then some (front ++ List.replicate missing 0 ++ back) else none

/-! ## Names -/

/-- The bytes of a text, with percent signs and two hexadecimal digits read as bytes. -/
def percentDecoded : List Char → List UInt8
  | [] => []
  | [c] => String.utf8EncodeChar c
  | [c, d] => String.utf8EncodeChar c ++ String.utf8EncodeChar d
  | c :: d :: e :: cs =>
    match if c = '%' then (Digits.hexValue? d, Digits.hexValue? e) else (none, none) with
    | (some high, some low) => (high * 16 + low).toUInt8 :: percentDecoded cs
    | _ => String.utf8EncodeChar c ++ percentDecoded (d :: e :: cs)

def nameMarks : List Char := "!$&'()*+,-.;=_~".toList

def isNameChar (c : Char) : Bool :=
  Text.isSmall c || Text.isCapital c || Text.isDigit c || nameMarks.contains c

/-- A part of a name stands for one with characters of other scripts. -/
def isEncodedPart (p : List Char) : Bool := (p.take 4).map Char.toLower == "xn--".toList

/-- The rules for names of other scripts do not come into it. -/
def isPlainName (name : List Char) : Bool :=
  name.all (·.toNat < 0x80) && !(Text.splitWhere (· == '.') name).any isEncodedPart

/-- A name in the form in which it is looked up. -/
def lookedUp? (rules : NameRules) (bytes : List UInt8) : Option (List Char) :=
  let name := bytes.map fun b => Char.ofNat b.toNat
  if isPlainName name then some (name.map Char.toLower) else rules bytes

/-- The host that a name denotes. -/
def ofName? (rules : NameRules) (cs : List Char) : Option Host := do
  let name ← lookedUp? rules (percentDecoded cs)
  if name = [] ∨ ¬ name.all isNameChar then none
  else if endsInNumber (parts name) then (ipv4? (parts name)).map .ipv4
  else some (.name name)

/-! ## Hosts -/

def of? (rules : NameRules) : List Char → Option Host
  | [] => none
  | '[' :: cs => if cs.getLast? = some ']' then (ipv6? cs.dropLast).map .ipv6 else none
  | cs => ofName? rules cs

/-- The numbers between the dots of an IPv4 address. -/
def octets (number : Nat) : List Nat :=
  [number / 0x1000000 % 256, number / 0x10000 % 256, number / 0x100 % 256, number % 256]

/-- Where the longest run of zeros begins, of several the first one, and how long it is. -/
def longestZeros : List Nat → Nat × Nat
  | [] => (0, 0)
  | g :: gs =>
    let here := ((g :: gs).takeWhile (· == 0)).length
    let (start, length) := longestZeros gs
    if length ≤ here then (0, here) else (start + 1, length)

def groupsText (groups : List Nat) : List Char :=
  List.intercalate [':'] (groups.map (Nat.toDigits 16))

/-- An IPv6 address, with the longest run of zeros left out. -/
def ipv6Text (groups : List Nat) : List Char :=
  let (start, length) := longestZeros groups
  if length < 2 then groupsText groups
  else groupsText (groups.take start) ++ ':' :: ':' :: groupsText (groups.drop (start + length))

def text : Host → List Char
  | name cs => cs
  | ipv4 number => List.intercalate ['.'] ((octets number).map Digits.numeral)
  | ipv6 groups => '[' :: (ipv6Text groups ++ [']'])

end Host

end RevenueDesk.Chat
