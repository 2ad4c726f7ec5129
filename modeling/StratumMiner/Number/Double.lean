import StratumMiner.Number.Rounding

/-!
# Binary floating-point numbers

A double is a 64-bit pattern: a sign, eleven bits of exponent and fifty-two bits of fraction. A
finite double stands for the exact number `± significand * 2 ^ exponent`, so arithmetic is exact
arithmetic on ratios of natural numbers followed by one rounding to the nearest double, with exact
halves going to the even neighbour. Operations are stated for finite operands; a result past the
largest double is infinite.
-/

namespace StratumMiner

/-- A floating-point number, given by its bits. -/
structure Double where
  bits : UInt64
  deriving Repr, DecidableEq

namespace Double

/-- The weight of the sign bit, `2 ^ 63`. -/
def signWeight : Nat := 0x8000000000000000

/-- The weight of the lowest bit of exponent, `2 ^ 52`. -/
def exponentWeight : Nat := 0x10000000000000

/-- The sign bit. -/
def isNegative (value : Double) : Bool :=
  signWeight ≤ value.bits.toNat

/-- The eleven bits of exponent. -/
def exponentField (value : Double) : Nat :=
  value.bits.toNat / exponentWeight % 2048

/-- The fifty-two bits of fraction. -/
def fraction (value : Double) : Nat :=
  value.bits.toNat % exponentWeight

/-- Neither infinite nor a pattern that stands for no number. -/
def isFinite (value : Double) : Bool :=
  value.exponentField != 2047

/-- Either of the two zeros. -/
def isZero (value : Double) : Bool :=
  value.exponentField == 0 && value.fraction == 0

/-- The whole number that the exponent scales. -/
def significand (value : Double) : Nat :=
  if value.exponentField = 0 then value.fraction else value.fraction + exponentWeight

/-- The power of two of the last bit of the significand. -/
def exponent (value : Double) : Int :=
  (max value.exponentField 1 : Nat) - 1075

/-- The magnitude is `numerator / denominator`. -/
def numerator (value : Double) : Nat :=
  value.significand <<< value.exponent.toNat

/-- A power of two; see `numerator`. -/
def denominator (value : Double) : Nat :=
  1 <<< (-value.exponent).toNat

/-- The bits of positive infinity without the sign. -/
def infinityBits : Nat :=
  2047 * exponentWeight

/-- The power of two of the last bit kept when `numerator / denominator` is rounded: fifty-three
bits are kept, or fewer when that would go below the least power. -/
def roundingExponent (numerator denominator : Nat) : Int :=
  let guess : Int := (Nat.log2 numerator : Int) - (Nat.log2 denominator : Int)
  let reaches : Bool :=
    if 0 ≤ guess then denominator <<< guess.toNat ≤ numerator
    else denominator ≤ numerator <<< (-guess).toNat
  max (-1074) (if reaches then guess - 52 else guess - 53)

/-- The double nearest to `± numerator / denominator`. A significand that rounds up to a power of
two carries into the exponent by plain addition. -/
def ofRatio (negative : Bool) (numerator denominator : Nat) : Double :=
  let exponent := roundingExponent numerator denominator
  let significand :=
    roundDiv .toEven (numerator <<< (-exponent).toNat) (denominator <<< exponent.toNat)
  let magnitude :=
    if numerator = 0 then 0
    else min infinityBits ((exponent + 1074).toNat * exponentWeight + significand)
  ⟨UInt64.ofNat (magnitude + if negative then signWeight else 0)⟩

/-- The double nearest to a natural number. -/
def ofNat (value : Nat) : Double :=
  ofRatio false value 1

/-- The other sign. -/
def negate (value : Double) : Double :=
  ⟨value.bits ^^^ 0x8000000000000000⟩

/-- The rounded product of two finite doubles. -/
def mul (left right : Double) : Double :=
  ofRatio (left.isNegative != right.isNegative) (left.numerator * right.numerator)
    (left.denominator * right.denominator)

/-- The rounded quotient of two finite doubles, the second of which is not zero. -/
def div (left right : Double) : Double :=
  ofRatio (left.isNegative != right.isNegative) (left.numerator * right.denominator)
    (left.denominator * right.numerator)

/-- The rounded sum of two finite doubles that are not negative. -/
def add (left right : Double) : Double :=
  ofRatio false (left.numerator * right.denominator + right.numerator * left.denominator)
    (left.denominator * right.denominator)

/-- Whether the magnitude is at least a natural number. -/
def reaches (value : Double) (bound : Nat) : Bool :=
  bound * value.denominator ≤ value.numerator

/-- Whether a finite double has no fractional part. -/
def isWhole (value : Double) : Bool :=
  value.numerator % value.denominator == 0

/-- The whole part of the magnitude. -/
def floor (value : Double) : Nat :=
  value.numerator / value.denominator

theorem denominator_pos (value : Double) : 0 < value.denominator := by
  rw [denominator, Nat.shiftLeft_eq, Nat.one_mul]
  exact Nat.two_pow_pos _

end Double

end StratumMiner
