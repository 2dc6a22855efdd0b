/-
# Words

A word is a maximal run of word characters: letters, digits, marks and connecting
punctuation such as the underscore.
-/
import RevenueDesk.Text.Blank
import RevenueDesk.Text.WordTable

namespace RevenueDesk.Text

/-- An ASCII letter, digit or underscore. -/
def isAsciiWord (c : Char) : Bool :=
  ('a' ≤ c && c ≤ 'z') || ('A' ≤ c && c ≤ 'Z') || ('0' ≤ c && c ≤ '9') || c == '_'

/-- `c` is part of a word. -/
def isWord (c : Char) : Bool :=
  if c.val < 0x80 then isAsciiWord c
  else wordBlocks.any fun block => block.1 ≤ c.toNat && c.toNat ≤ block.2

/-- The words of a text, from left to right. -/
def words (cs : List Char) : List (List Char) :=
  runs (fun c => !isWord c) cs

end RevenueDesk.Text
