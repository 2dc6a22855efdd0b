/-
# Quoted texts

Writing a text in quotes and reading it back gives the text again, whatever follows the
closing quote.  The proof goes character by character: the escape of a character takes the
reader from between characters to between characters, with that character read.
-/
import RevenueDesk.Json.Lexeme
import RevenueDesk.Json.Printer

namespace RevenueDesk.Json

open Text (Symbol)

theorem hexValue?_hexChar {d : Nat} (h : d < 16) : Digits.hexValue? (hexChar d) = some d := by
  have : d = 0 ∨ d = 1 ∨ d = 2 ∨ d = 3 ∨ d = 4 ∨ d = 5 ∨ d = 6 ∨ d = 7 ∨ d = 8 ∨ d = 9 ∨ d = 10 ∨
      d = 11 ∨ d = 12 ∨ d = 13 ∨ d = 14 ∨ d = 15 := by omega
  rcases this with h | h | h | h | h | h | h | h | h | h | h | h | h | h | h | h <;> subst h <;> rfl

theorem unit?_of_lt {u : Nat} (h : u < 0xD800) :
    unit? none u = some (some (Char.ofNat u), .plain) := by
  unfold unit?
  have h1 : ¬(0xD800 ≤ u ∧ u < 0xDC00) := by omega
  have h2 : ¬(0xDC00 ≤ u ∧ u < 0xE000) := by omega
  simp [h1, h2]

/-- The escape of a character is read as the character. -/
theorem quotedFrom?_escape (acc : List Char) (c : Char) (rest : List Symbol) :
    quotedFrom? acc .plain ((escape c).map some ++ rest) = quotedFrom? (c :: acc) .plain rest := by
  unfold escape
  split
  · rename_i h; subst h; rfl
  split
  · rename_i h; subst h; rfl
  split
  · rename_i h; subst h; rfl
  split
  · rename_i h; subst h; rfl
  split
  · rename_i h; subst h; rfl
  split
  · rename_i h; subst h; rfl
  split
  · rename_i h; subst h; rfl
  split
  · rename_i h
    have h0 : Digits.hexValue? '0' = some 0 := rfl
    have h1 := hexValue?_hexChar (d := c.toNat / 16) (by omega)
    have h2 := hexValue?_hexChar (d := c.toNat % 16) (by omega)
    have h3 : ((0 * 16 + 0) * 16 + 0) * 16 = 0 := rfl
    have hv : (((0 * 16 + 0) * 16 + 0) * 16 + c.toNat / 16) * 16 + c.toNat % 16 = c.toNat := by
      omega
    have hu := unit?_of_lt (u := c.toNat) (by omega)
    simp only [List.map_cons, List.map_nil, List.cons_append, List.nil_append]
    rw [quotedFrom?]
    simp only [show ¬('\\' = '"') by decide, if_false, if_true]
    rw [quotedFrom?]
    simp only [if_true]
    rw [quotedFrom?]; simp only [h0]
    rw [quotedFrom?]; simp only [h0]
    rw [quotedFrom?]; simp only [h1]
    rw [quotedFrom?]; simp only [h2]
    rw [show ((0 * 16 + 0) * 16 + 0) * 16 + c.toNat / 16 = c.toNat / 16 by omega,
      show c.toNat / 16 * 16 + c.toNat % 16 = c.toNat by omega, hu]
    simp [Char.ofNat_toNat]
  · rename_i hq hb _ _ _ _ _ hlt
    simp only [List.map_cons, List.map_nil, List.cons_append, List.nil_append]
    rw [quotedFrom?]
    simp [hq, hb, hlt]

theorem quotedFrom?_quote (acc cs : List Char) (rest : List Symbol) :
    quotedFrom? acc .plain ((cs.flatMap escape ++ ['"']).map some ++ rest)
      = some (acc.reverse ++ cs, rest) := by
  induction cs generalizing acc with
  | nil => simp [quotedFrom?]
  | cons c cs ih =>
    simp only [List.flatMap_cons, List.append_assoc, List.map_append]
    rw [quotedFrom?_escape]
    simpa [List.append_assoc] using ih (c :: acc)

/-- What is written in quotes is read back, whatever follows. -/
theorem quoted?_quote (s : String) (rest : List Symbol) :
    quoted? ((s.toList.flatMap escape ++ ['"']).map some ++ rest) = some (s, rest) := by
  unfold quoted?
  rw [quotedFrom?_quote]
  simp

end RevenueDesk.Json
