/-
# The shortest decimal that reads back

Many decimals lie nearer to a given double than to any other one, and so read back as it.
Among them the *shortest* has the fewest digits, and of several with as many digits it is
the one nearest to the double itself, with an even last digit if two are as near.

For every number of digits there are only two candidates, the decimals of that many digits
just below and just above the double: if any decimal of the grid lies in the interval of
reals that round to the double, so does one of these two.
-/
import RevenueDesk.Number.Binary64
import RevenueDesk.Number.Digits

namespace RevenueDesk

/-- The decimal `digits · 10 ^ exponent`. -/
structure Decimal where
  digits : Nat
  /-- The power of ten that the last digit counts. -/
  exponent : Int
deriving DecidableEq, Repr

namespace Shortest

/-- A positive quotient together with the interval around it whose members read back as it:
`low / den ≤ value / den ≤ high / den`, ends included if `closed`. -/
structure Target where
  low : Nat
  value : Nat
  high : Nat
  den : Nat
  /-- The ends read back as the value too. -/
  closed : Bool

/-- The interval around `significand · 2 ^ scale`.  Its ends lie half way to the next
doubles; just above a power of two the one below is twice as near.  The ends belong to the
double with the even significand. -/
def target (significand : Nat) (scale : Int) (nearBelow : Bool) : Target :=
  let up := Nat.pow 2 scale.toNat
  let den := 4 * Nat.pow 2 (-scale).toNat
  { low := (4 * significand - if nearBelow then 1 else 2) * up
    value := 4 * significand * up
    high := (4 * significand + 2) * up
    den := den
    closed := significand % 2 = 0 }

/-- The number of digits before the decimal point of `num / den`; minus the number of
zeros after the point if there are none. -/
def leading (num den : Nat) : Int :=
  if den ≤ num then Digits.count (num / den)
  else 1 - (Digits.count ((den - 1) / num) : Int)

/-- `d · 10 ^ e` reads back as the value. -/
def Target.holds (t : Target) (d : Nat) (e : Int) : Bool :=
  let x := d * Nat.pow 10 e.toNat * t.den
  let unit := Nat.pow 10 (-e).toNat
  if t.closed then t.low * unit ≤ x && x ≤ t.high * unit
  else t.low * unit < x && x < t.high * unit

/-- The candidate on the grid of `10 ^ e`, if one of the two around the value reads back. -/
def Target.onGrid (t : Target) (e : Int) : Option Nat :=
  let num := t.value * Nat.pow 10 (-e).toNat
  let den := t.den * Nat.pow 10 e.toNat
  let below := num / den
  let nearest := Digits.roundDiv num den
  let other := if nearest = below then below + 1 else below
  if t.holds nearest e then some nearest
  else if t.holds other e then some other
  else none

/-- The first grid with a hit, from `n` digits on, at most `more` grids further. -/
def Target.search (t : Target) (lead : Int) (n : Nat) : Nat → Decimal
  | 0 => ⟨0, 0⟩
  | more + 1 =>
    let e := lead - n
    match t.onGrid e with
    | some d => ⟨d, e⟩
    | none => t.search lead (n + 1) more

/-- A decimal without zeros at its end. -/
def stripZeros (d : Nat) (e : Int) : Decimal :=
  if h : d ≠ 0 ∧ d % 10 = 0 then stripZeros (d / 10) (e + 1) else ⟨d, e⟩
termination_by d
decreasing_by omega

/-- The shortest decimal of a finite, non-zero double, without its sign. -/
def decimal (x : Binary64) : Decimal :=
  let nearBelow := x.fractionBits = 0 && 1 < x.exponentBits
  let t := target x.significand x.scale nearBelow
  let d := t.search (leading t.value t.den) 1 17
  stripZeros d.digits d.exponent

end Shortest

/-! ## Spelling -/

/-- Where a format changes from positional to scientific notation: a number is written
positionally if its first digit stands at `10 ^ e` with `lowest ≤ e < highest`. -/
structure NumberFormat where
  /-- The least such power. -/
  lowest : Int
  /-- The first power above. -/
  highest : Int

/-- Positional notation: a point always, with a digit on both sides of it. -/
def Decimal.positional (d : Decimal) : List Char :=
  let ds := Digits.numeral d.digits
  if 0 ≤ d.exponent then ds ++ List.replicate d.exponent.toNat '0' ++ ['.', '0']
  else
    let places := d.exponent.natAbs
    if places < ds.length then
      ds.take (ds.length - places) ++ '.' :: ds.drop (ds.length - places)
    else '0' :: '.' :: List.replicate (places - ds.length) '0' ++ ds

/-- Scientific notation: one digit before the point, the point only with digits after it,
and the exponent with its sign. -/
def Decimal.scientific (d : Decimal) : List Char :=
  let ds := Digits.numeral d.digits
  let e := d.exponent + ds.length - 1
  let mantissa := match ds with
    | [] => []
    | [c] => [c]
    | c :: cs => c :: '.' :: cs
  mantissa ++ 'e' :: (if 0 ≤ e then ['+'] else ['-']) ++ Digits.numeral e.natAbs

/-- The text of a finite double. -/
def NumberFormat.text (f : NumberFormat) (x : Binary64) : List Char :=
  let sign := if x.negative then ['-'] else []
  if x.magnitudeBits = 0 then sign ++ ['0', '.', '0']
  else
    let d := Shortest.decimal x
    let first := d.exponent + (Digits.count d.digits : Int) - 1
    if f.lowest ≤ first ∧ first < f.highest then sign ++ d.positional
    else sign ++ d.scientific

end RevenueDesk
