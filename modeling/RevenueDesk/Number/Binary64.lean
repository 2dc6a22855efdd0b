/-
# Double-precision numbers

A binary64 number is its 64-bit word: a sign bit, eleven bits of exponent and fifty-two
bits of fraction.  The word is kept, and not just the value, because the ranking order
tells words apart that the values do not: -0.0 stands below 0.0, and a word that is not a
number stands at the end that its sign bit says.

The fields and the two orders are functions of the word in whole numbers.  The arithmetic
is that of `Float`, with the sign bit of results that are not numbers on top: an operand
that is not a number is handed on, the left one first, and an operation that has no value
gives the negative one.
-/

namespace RevenueDesk

/-- A double-precision number, as its word. -/
structure Binary64 where
  /-- Sign, exponent and fraction, from the highest bit. -/
  bits : UInt64
deriving DecidableEq, Inhabited, Repr

namespace Binary64

/-! ## Fields -/

def negative (x : Binary64) : Bool := 0x8000000000000000 ≤ x.bits.toNat

/-- The word without its sign bit.  Of two numbers the one of larger magnitude has the
larger one. -/
def magnitudeBits (x : Binary64) : Nat := x.bits.toNat % 0x8000000000000000

/-- The eleven bits of exponent. -/
def exponentBits (x : Binary64) : Nat := x.magnitudeBits / 0x10000000000000

/-- The fifty-two bits of fraction. -/
def fractionBits (x : Binary64) : Nat := x.magnitudeBits % 0x10000000000000

def isFinite (x : Binary64) : Bool := x.exponentBits != 2047

def isNaN (x : Binary64) : Bool := x.exponentBits == 2047 && x.fractionBits != 0

/-- A finite number is `± significand · 2 ^ scale`. -/
def significand (x : Binary64) : Nat :=
  if x.exponentBits = 0 then x.fractionBits else 0x10000000000000 + x.fractionBits

/-- The power of two that the significand counts. -/
def scale (x : Binary64) : Int := max x.exponentBits 1 - 1075

/-! ## Values -/

def toFloat (x : Binary64) : Float := Float.ofBits x.bits

def ofFloat (x : Float) : Binary64 := ⟨x.toBits⟩

def zero : Binary64 := ⟨0⟩

def negZero : Binary64 := ⟨0x8000000000000000⟩

def infinity : Binary64 := ⟨0x7FF0000000000000⟩

def negInfinity : Binary64 := ⟨0xFFF0000000000000⟩

/-- Not a number, with sign bit 0. -/
def nan : Binary64 := ⟨0x7FF8000000000000⟩

/-- Not a number, with sign bit 1: the result of an operation that has no value. -/
def noValue : Binary64 := ⟨0xFFF8000000000000⟩

def neg (x : Binary64) : Binary64 := ⟨x.bits ^^^ 0x8000000000000000⟩

/-- The double nearest to a natural number, to the even one of two. -/
def ofNat (n : Nat) : Binary64 := ofFloat (Float.ofNat n)

/-- The double nearest to an integer. -/
def ofInt (n : Int) : Binary64 :=
  if n < 0 then neg (ofNat n.natAbs) else ofNat n.natAbs

/-! ## Arithmetic -/

/-- The word of a result, for operands that are numbers. -/
def result (r : Float) : Binary64 := if r.isNaN then noValue else ofFloat r

/-- An operation on two values as one on words. -/
def lift₂ (op : Float → Float → Float) (x y : Binary64) : Binary64 :=
  if x.isNaN then x else if y.isNaN then y else result (op x.toFloat y.toFloat)

instance : Add Binary64 := ⟨lift₂ (· + ·)⟩
instance : Sub Binary64 := ⟨lift₂ (· - ·)⟩
instance : Mul Binary64 := ⟨lift₂ (· * ·)⟩
instance : Div Binary64 := ⟨lift₂ (· / ·)⟩

def sqrt (x : Binary64) : Binary64 := if x.isNaN then x else result x.toFloat.sqrt

/-! ## Orders -/

/-- The place of a number among the numbers; both zeros have the same. -/
def place (x : Binary64) : Int :=
  if x.negative then -(x.magnitudeBits : Int) else x.magnitudeBits

/-- `x` is at most `y` as a number.  Nothing is at most, or at least, what is not a
number. -/
def le (x y : Binary64) : Bool := !x.isNaN && !y.isNaN && x.place ≤ y.place

/-- The place of a word in the ranking order: no two words share one. -/
def rankPlace (x : Binary64) : Int :=
  if x.negative then -(x.magnitudeBits : Int) - 1 else x.magnitudeBits

/-- The ranking order: the numerical one, with -0.0 below 0.0 and the words that are not
numbers at both ends. -/
def rank (x y : Binary64) : Ordering := compare x.rankPlace y.rankPlace

/-! ## Lemmas -/

theorem bits_toNat_eq (x : Binary64) :
    x.bits.toNat = (if x.negative then 0x8000000000000000 else 0) + x.magnitudeBits := by
  have := x.bits.toNat_lt
  simp only [negative, magnitudeBits, decide_eq_true_eq]
  split <;> omega

theorem rankPlace_inj {x y : Binary64} (h : x.rankPlace = y.rankPlace) : x = y := by
  have hx := bits_toNat_eq x
  have hy := bits_toNat_eq y
  unfold rankPlace at h
  have : x.bits.toNat = y.bits.toNat := by
    rw [hx, hy]
    revert h
    cases x.negative <;> cases y.negative <;> simp <;> omega
  cases x; cases y
  exact congrArg mk (UInt64.toNat_inj.1 this)

@[simp] theorem rank_eq_eq_iff {x y : Binary64} : rank x y = .eq ↔ x = y := by
  simp only [rank, Int.compare_eq_eq]
  exact ⟨rankPlace_inj, fun h => h ▸ rfl⟩

end Binary64

end RevenueDesk
