import StratumMiner.Number.Double

/-!
# The fewest digits that read back

A double is printed with the fewest significant decimal digits that still lie among the numbers
which round to it. Those numbers form an interval around the double: it reaches halfway to each
neighbour, and its ends belong to it exactly when the significand is even. For one digit, two
digits, and so on, the two neighbours of the double on that decimal grid are tried; the first grid
with a neighbour in the interval wins, and of two neighbours in it the nearer one. Where a double
lies just in the middle between both, the tie of the style that asks for the digits decides.
Seventeen digits always suffice.
-/

namespace StratumMiner

/-- The decimal number `digits * 10 ^ exponent`. -/
structure Decimal where
  digits : Nat
  exponent : Int
  deriving Repr, DecidableEq

namespace Decimal

/-- The number of decimal digits of a natural number; zero has one. -/
def width (value : Nat) : Nat :=
  (Nat.toDigits 10 value).length

/-- Drop trailing zeros from the digits, at most `fuel` of them. -/
def stripZeros (fuel : Nat) (value : Decimal) : Decimal :=
  match fuel with
  | 0 => value
  | fuel + 1 =>
      if value.digits != 0 && value.digits % 10 == 0 then
        stripZeros fuel ⟨value.digits / 10, value.exponent + 1⟩
      else value

end Decimal

/-- An interval of positive ratios with one denominator. -/
structure RoundingInterval where
  low : Nat
  middle : Nat
  high : Nat
  denominator : Nat
  closed : Bool

namespace RoundingInterval

/-- The numbers that round to a positive double. Below a power of two the doubles are twice as
dense, so the gap there is half as wide. -/
def ofDouble (value : Double) : RoundingInterval :=
  let scale := value.exponent.toNat
  let narrow := value.fraction == 0 && 1 < value.exponentField
  { low := (4 * value.significand - if narrow then 1 else 2) <<< scale
    middle := (4 * value.significand) <<< scale
    high := (4 * value.significand + 2) <<< scale
    denominator := 4 * value.denominator
    closed := value.significand % 2 == 0 }

/-- The interval scaled so that the grid `10 ^ exponent` becomes the natural numbers. -/
def onGrid (interval : RoundingInterval) (exponent : Int) : RoundingInterval :=
  let up := Nat.pow 10 (-exponent).toNat
  { interval with
    low := interval.low * up
    middle := interval.middle * up
    high := interval.high * up
    denominator := interval.denominator * Nat.pow 10 exponent.toNat }

/-- Whether a natural number lies in the interval. -/
def contains (interval : RoundingInterval) (value : Nat) : Bool :=
  let scaled := value * interval.denominator
  if interval.closed then interval.low ≤ scaled && scaled ≤ interval.high
  else interval.low < scaled && scaled < interval.high

/-- The natural number in the interval nearest to its middle, if there is one among the two
neighbours of the middle. -/
def nearest? (tie : Tie) (interval : RoundingInterval) : Option Nat :=
  let below := interval.middle / interval.denominator
  let above := below + 1
  match interval.contains below, interval.contains above with
  | true, true => some (roundDiv tie interval.middle interval.denominator)
  | true, false => some below
  | false, true => some above
  | false, false => none

/-- The power of ten of the first significant digit of the middle. -/
def leadingExponent (interval : RoundingInterval) : Int :=
  if interval.denominator ≤ interval.middle then
    (Decimal.width (interval.middle / interval.denominator) : Int) - 1
  else
    -(Decimal.width ((interval.denominator + interval.middle - 1) / interval.middle - 1) : Int)

/-- The shortest decimal in the interval with at least `count` digits, trying `fuel` grids. -/
def shortestFrom (tie : Tie) (interval : RoundingInterval) (fuel count : Nat) : Decimal :=
  let exponent := interval.leadingExponent - ((count : Int) - 1)
  let grid := interval.onGrid exponent
  match fuel with
  | 0 => ⟨roundDiv tie grid.middle grid.denominator, exponent⟩
  | fuel + 1 =>
      match grid.nearest? tie with
      | some digits => ⟨digits, exponent⟩
      | none => shortestFrom tie interval fuel (count + 1)

end RoundingInterval

/-- The decimal with the fewest digits that reads back as the magnitude of a finite double. -/
def Double.shortest (tie : Tie) (value : Double) : Decimal :=
  if value.isZero then ⟨0, 0⟩
  else ((RoundingInterval.ofDouble value).shortestFrom tie 16 1).stripZeros 400

end StratumMiner
