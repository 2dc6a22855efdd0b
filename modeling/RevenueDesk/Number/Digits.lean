/-
# Decimal digits

Numbers in decimal, and the rounding of a quotient to the nearest whole number, by which
the formats cut off what they do not show.  Single digits are also read to the base 16.
-/

namespace RevenueDesk.Digits

def digitChar (d : Nat) : Char := Char.ofNat (48 + d)

/-- The value of a decimal digit, if `c` is one. -/
def digitValue? (c : Char) : Option Nat :=
  if '0' ≤ c ∧ c ≤ '9' then some (c.toNat - 48) else none

/-- The value of a hexadecimal digit, in capital or small letters. -/
def hexValue? (c : Char) : Option Nat :=
  if '0' ≤ c ∧ c ≤ '9' then some (c.toNat - 48)
  else if 'a' ≤ c ∧ c ≤ 'f' then some (c.toNat - 87)
  else if 'A' ≤ c ∧ c ≤ 'F' then some (c.toNat - 55)
  else none

/-- The decimal digits of a number in front of `acc`, without leading zeros; none for 0. -/
def digitsOnto (n : Nat) (acc : List Char) : List Char :=
  if h : n = 0 then acc else digitsOnto (n / 10) (digitChar (n % 10) :: acc)
termination_by n
decreasing_by omega

/-- The decimal numeral of a number, without leading zeros. -/
def numeral (n : Nat) : List Char := if n = 0 then ['0'] else digitsOnto n []

/-- The decimal numeral of an integer, with a minus sign in front if it is negative. -/
def intNumeral (n : Int) : List Char :=
  if n < 0 then '-' :: numeral n.natAbs else numeral n.natAbs

/-- How many digits a number has; 0 has none. -/
def count (n : Nat) : Nat := (digitsOnto n []).length

/-- The number that a row of digits denotes, whose first digits denote `acc`. -/
def valueFrom (acc : Nat) (ds : List Nat) : Nat := ds.foldl (fun v d => v * 10 + d) acc

/-- The whole number nearest to `num / den`, and of two the even one. -/
def roundDiv (num den : Nat) : Nat :=
  let q := num / den
  let r := num % den
  if 2 * r < den then q
  else if den < 2 * r then q + 1
  else if q % 2 = 0 then q else q + 1

/-! ## Lemmas -/

theorem digitsOnto_append (n : Nat) (acc acc' : List Char) :
    digitsOnto n (acc ++ acc') = digitsOnto n acc ++ acc' := by
  induction n using Nat.strongRecOn generalizing acc with
  | _ n ih =>
    rw [digitsOnto.eq_def n, digitsOnto.eq_def n]
    split
    · rfl
    · rename_i h
      exact ih (n / 10) (by omega) (digitChar (n % 10) :: acc)

end RevenueDesk.Digits
