/-
# Bytes as symbols

A text that arrives as bytes is read as a list of *symbols*: the characters that the bytes
encode in UTF-8, and a mark for each place where they encode none.  A reader that skips a
part of the text does not care about marks in it; a reader that keeps the part refuses
them.  Bytes below 0x80 are always their own character, whatever stands around them.
-/

namespace RevenueDesk.Text

/-- A character, or `none` where the bytes encode no character. -/
abbrev Symbol := Option Char

def symbolsOf (s : String) : List Symbol := s.toList.map some

/-- What has been read of a character. -/
inductive Partial where
  | fresh
  /-- `left + 1` bytes are missing, the next one between `low` and `high`; the bits so far
  make up `value`. -/
  | within (left value low high : Nat)

/-- A first byte: what it completes, and what it leaves open. -/
def startByte (b : Nat) : List Symbol × Partial :=
  if b < 0x80 then ([some (Char.ofNat b)], .fresh)
  else if 0xC2 ≤ b ∧ b ≤ 0xDF then ([], .within 0 (b - 0xC0) 0x80 0xBF)
  else if b = 0xE0 then ([], .within 1 0 0xA0 0xBF)
  else if b = 0xED then ([], .within 1 0xD 0x80 0x9F)
  else if 0xE1 ≤ b ∧ b ≤ 0xEF then ([], .within 1 (b - 0xE0) 0x80 0xBF)
  else if b = 0xF0 then ([], .within 2 0 0x90 0xBF)
  else if 0xF1 ≤ b ∧ b ≤ 0xF3 then ([], .within 2 (b - 0xF0) 0x80 0xBF)
  else if b = 0xF4 then ([], .within 2 4 0x80 0x8F)
  else ([none], .fresh)

/-- One byte more: the symbols that it completes, last one first, and what it leaves open. -/
def Partial.next : Partial → Nat → List Symbol × Partial
  | .fresh, b => startByte b
  | .within left value low high, b =>
    if low ≤ b ∧ b ≤ high then
      let value := value * 64 + b % 64
      match left with
      | 0 => ([some (Char.ofNat value)], .fresh)
      | left + 1 => ([], .within left value 0x80 0xBF)
    else
      let (found, rest) := startByte b
      (found ++ [none], rest)

/-- The symbols of a text given as bytes. -/
def symbolsOfBytes (bytes : List UInt8) : List Symbol :=
  let (found, rest) := bytes.foldl (fun (found, rest) b =>
    let (more, rest) := Partial.next rest b.toNat
    (more ++ found, rest)) (([] : List Symbol), Partial.fresh)
  match rest with
  | .fresh => found.reverse
  | .within .. => (none :: found).reverse

/-- The text that bytes encode, if they encode one. -/
def utf8? (bytes : List UInt8) : Option (List Char) := (symbolsOfBytes bytes).mapM id

end RevenueDesk.Text
