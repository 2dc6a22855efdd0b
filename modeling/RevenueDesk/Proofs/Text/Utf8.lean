/-
# Texts as bytes

The bytes of a text in UTF-8 are read as the characters of the text, and as nothing else
(`symbolsOfBytes_utf8`).  So a body can hold any text, and what it holds is this text.

The proof goes character by character: its bytes take the reader from between characters to
between characters, with this character read (`foldl_step_encode`).  The first byte tells how
many follow, and the next one lies between the bounds that the first one sets, because the
character has no shorter form and is no surrogate.
-/
import Mathlib.Tactic.Common
import RevenueDesk.Text.Symbol

namespace RevenueDesk.Text

/-- The bytes of a text in UTF-8. -/
def utf8 (cs : List Char) : List UInt8 := cs.flatMap String.utf8EncodeChar

/-- The reader with one byte more: the symbols so far, last one first, and what is open. -/
def step (state : List Symbol × Partial) (b : UInt8) : List Symbol × Partial :=
  ((Partial.next state.2 b.toNat).1 ++ state.1, (Partial.next state.2 b.toNat).2)

/-- The symbols of a reader at the end of a text. -/
def finish (state : List Symbol × Partial) : List Symbol :=
  match state.2 with
  | .fresh => state.1.reverse
  | .within .. => (none :: state.1).reverse

lemma symbolsOfBytes_eq (bytes : List UInt8) :
    symbolsOfBytes bytes = finish (bytes.foldl step ([], .fresh)) := rfl

section Bytes

variable (found : List Symbol) {v left value low high b : Nat}

lemma step_ofNat (p : Partial) (hb : b < 256) :
    step (found, p) (UInt8.ofNat b) = ((p.next b).1 ++ found, (p.next b).2) := by
  have hto : (UInt8.ofNat b).toNat = b := by
    rw [UInt8.toNat_ofNat']
    omega
  rw [step, hto]

/-- A first byte that leaves something open. -/
lemma step_first {p : Partial} (hb : b < 256) (h : startByte b = ([], p)) :
    step (found, .fresh) (UInt8.ofNat b) = (found, p) := by
  rw [step_ofNat found _ hb, Partial.next, h]
  rfl

/-- A byte in the middle of a character. -/
lemma step_within (hb : b < 256) (hrange : low ≤ b ∧ b ≤ high) :
    step (found, .within (left + 1) value low high) (UInt8.ofNat b) =
      (found, .within left (value * 64 + b % 64) 0x80 0xBF) := by
  simp [step_ofNat found _ hb, Partial.next, hrange]

/-- The last byte of a character. -/
lemma step_last (hb : b < 256) (hrange : low ≤ b ∧ b ≤ high) :
    step (found, .within 0 value low high) (UInt8.ofNat b) =
      (some (Char.ofNat (value * 64 + b % 64)) :: found, .fresh) := by
  simp [step_ofNat found _ hb, Partial.next, hrange]

/-! ## What follows a first byte -/

lemma foldl_step_one_left (h : low ≤ v % 64 + 128 ∧ v % 64 + 128 ≤ high) :
    [UInt8.ofNat (v % 64 + 128)].foldl step (found, .within 0 (v / 64) low high) =
      (some (Char.ofNat v) :: found, .fresh) := by
  have hvalue : v / 64 * 64 + (v % 64 + 128) % 64 = v := by omega
  rw [List.foldl_cons, List.foldl_nil, step_last found (by omega) h, hvalue]

lemma foldl_step_two_left (h : low ≤ v / 64 % 64 + 128 ∧ v / 64 % 64 + 128 ≤ high) :
    [UInt8.ofNat (v / 64 % 64 + 128), UInt8.ofNat (v % 64 + 128)].foldl step
        (found, .within 1 (v / 4096) low high) =
      (some (Char.ofNat v) :: found, .fresh) := by
  have hvalue : v / 4096 * 64 + (v / 64 % 64 + 128) % 64 = v / 64 := by omega
  rw [List.foldl_cons, step_within found (by omega) h, hvalue]
  exact foldl_step_one_left found (by omega)

lemma foldl_step_three_left (h : low ≤ v / 4096 % 64 + 128 ∧ v / 4096 % 64 + 128 ≤ high) :
    [UInt8.ofNat (v / 4096 % 64 + 128), UInt8.ofNat (v / 64 % 64 + 128),
        UInt8.ofNat (v % 64 + 128)].foldl step (found, .within 2 (v / 262144) low high) =
      (some (Char.ofNat v) :: found, .fresh) := by
  have hvalue : v / 262144 * 64 + (v / 4096 % 64 + 128) % 64 = v / 4096 := by omega
  rw [List.foldl_cons, step_within found (by omega) h, hvalue]
  exact foldl_step_two_left found (by omega)

/-! ## First bytes -/

lemma startByte_two (h : 0x80 ≤ v ∧ v ≤ 0x7FF) :
    startByte (v / 64 % 32 + 192) = ([], .within 0 (v / 64) 0x80 0xBF) := by
  have hbyte : v / 64 % 32 + 192 = v / 64 + 192 := by omega
  have hnot : ¬ v / 64 + 192 < 0x80 := by omega
  have hrange : 0xC2 ≤ v / 64 + 192 ∧ v / 64 + 192 ≤ 0xDF := by omega
  simp [startByte, hbyte, hnot, hrange]

/-- The byte behind the first of three: not too small, or there would be a shorter form, and
not that of a surrogate. -/
lemma startByte_three (h : 0x800 ≤ v ∧ v ≤ 0xFFFF) (hsurrogate : v < 0xD800 ∨ 0xDFFF < v) :
    ∃ low high, startByte (v / 4096 % 16 + 224) = ([], .within 1 (v / 4096) low high) ∧
      low ≤ v / 64 % 64 + 128 ∧ v / 64 % 64 + 128 ≤ high := by
  have hbyte : v / 4096 % 16 + 224 = v / 4096 + 224 := by omega
  rw [hbyte]
  rcases Nat.lt_or_ge v 0x1000 with hsmall | hlarge
  · have hzero : v / 4096 = 0 := by omega
    exact ⟨0xA0, 0xBF, by simp [startByte, hzero], by omega⟩
  · by_cases hlast : v / 4096 = 13
    · exact ⟨0x80, 0x9F, by simp [startByte, hlast], by omega⟩
    · have h₁ : ¬ v / 4096 + 224 < 0x80 := by omega
      have h₂ : ¬ (0xC2 ≤ v / 4096 + 224 ∧ v / 4096 + 224 ≤ 0xDF) := by omega
      have h₃ : ¬ v / 4096 + 224 = 0xE0 := by omega
      have h₄ : ¬ v / 4096 + 224 = 0xED := by omega
      have h₅ : 0xE1 ≤ v / 4096 + 224 ∧ v / 4096 + 224 ≤ 0xEF := by omega
      refine ⟨0x80, 0xBF, ?_, by omega⟩
      rw [startByte, if_neg h₁, if_neg h₂, if_neg h₃, if_neg h₄, if_pos h₅, Nat.add_sub_cancel]

/-- The byte behind the first of four: not too small, and not too large for a character. -/
lemma startByte_four (h : 0x10000 ≤ v ∧ v < 0x110000) :
    ∃ low high, startByte (v / 262144 % 8 + 240) = ([], .within 2 (v / 262144) low high) ∧
      low ≤ v / 4096 % 64 + 128 ∧ v / 4096 % 64 + 128 ≤ high := by
  have hbyte : v / 262144 = 0 ∨ v / 262144 = 1 ∨ v / 262144 = 2 ∨ v / 262144 = 3 ∨
      v / 262144 = 4 := by omega
  rcases hbyte with hbyte | hbyte | hbyte | hbyte | hbyte
  · exact ⟨0x90, 0xBF, by simp [startByte, hbyte], by omega⟩
  · exact ⟨0x80, 0xBF, by simp [startByte, hbyte], by omega⟩
  · exact ⟨0x80, 0xBF, by simp [startByte, hbyte], by omega⟩
  · exact ⟨0x80, 0xBF, by simp [startByte, hbyte], by omega⟩
  · exact ⟨0x80, 0x8F, by simp [startByte, hbyte], by omega⟩

end Bytes

/-! ## Characters and texts -/

/-- The bytes of a character are read as the character. -/
lemma foldl_step_encode (found : List Symbol) (c : Char) :
    (String.utf8EncodeChar c).foldl step (found, .fresh) = (some c :: found, .fresh) := by
  obtain ⟨v, hv⟩ : ∃ v, c.val.toNat = v := ⟨_, rfl⟩
  have hc : Char.ofNat v = c := hv ▸ Char.ofNat_toNat c
  have hvalid : v < 0xD800 ∨ 0xDFFF < v ∧ v < 0x110000 := hv ▸ c.valid
  rw [String.utf8EncodeChar, hv]
  split
  · -- one byte
    have hlt : v < 0x80 := by omega
    rw [List.foldl_cons, List.foldl_nil, step_ofNat found _ (by omega)]
    simp [Partial.next, startByte, hlt, hc]
  split
  · -- two bytes
    rw [List.foldl_cons, step_first found (by omega) (startByte_two (by omega)),
      foldl_step_one_left found (by omega), hc]
  split
  · -- three bytes
    obtain ⟨low, high, hfirst, hrange⟩ := startByte_three (v := v) (by omega) (by omega)
    rw [List.foldl_cons, step_first found (by omega) hfirst,
      foldl_step_two_left found hrange, hc]
  · -- four bytes
    obtain ⟨low, high, hfirst, hrange⟩ := startByte_four (v := v) (by omega)
    rw [List.foldl_cons, step_first found (by omega) hfirst,
      foldl_step_three_left found hrange, hc]

lemma foldl_step_utf8 (found : List Symbol) (cs : List Char) :
    (utf8 cs).foldl step (found, .fresh) = ((cs.map some).reverse ++ found, .fresh) := by
  induction cs generalizing found with
  | nil => rfl
  | cons c cs ih =>
    rw [utf8, List.flatMap_cons, List.foldl_append, foldl_step_encode]
    exact (ih (some c :: found)).trans (by simp)

/-- The bytes of a text are read as its characters. -/
theorem symbolsOfBytes_utf8 (cs : List Char) : symbolsOfBytes (utf8 cs) = cs.map some := by
  rw [symbolsOfBytes_eq, foldl_step_utf8]
  simp [finish]

theorem utf8?_utf8 (cs : List Char) : utf8? (utf8 cs) = some cs := by
  rw [utf8?, symbolsOfBytes_utf8]
  simpa using List.mapM_pure (m := Option) (l := cs) (f := id)

/-- A character takes one byte at least. -/
theorem le_length_utf8 (cs : List Char) : cs.length ≤ (utf8 cs).length := by
  induction cs with
  | nil => simp
  | cons c cs ih =>
    have hc : 0 < (String.utf8EncodeChar c).length := by
      rw [String.length_utf8EncodeChar]
      exact Char.utf8Size_pos c
    rw [utf8] at ih
    rw [utf8, List.flatMap_cons, List.length_append, List.length_cons]
    omega

/-- A character takes four bytes at most. -/
theorem length_utf8_le (cs : List Char) : (utf8 cs).length ≤ 4 * cs.length := by
  induction cs with
  | nil => simp [utf8]
  | cons c cs ih =>
    have hc : (String.utf8EncodeChar c).length ≤ 4 := by
      rw [String.length_utf8EncodeChar]
      exact Char.utf8Size_le_four c
    rw [utf8] at ih
    rw [utf8, List.flatMap_cons, List.length_append, List.length_cons]
    omega

end RevenueDesk.Text
