/-!
# Rounding quotients

A quotient of natural numbers is rounded to the nearest natural number. Only exact halves leave a
choice, and the choice is a parameter: binary arithmetic and decimals with fixed places go to the
even neighbour, the scaled difficulty goes away from zero, and each style of shortest decimals makes
its own choice.
-/

namespace StratumMiner

/-- Where an exact half goes. -/
inductive Tie where
  | toEven
  | awayFromZero
  deriving Repr, DecidableEq

/-- The natural number nearest to `numerator / denominator`. -/
def roundDiv (tie : Tie) (numerator denominator : Nat) : Nat :=
  let quotient := numerator / denominator
  let remainder := numerator % denominator
  if 2 * remainder < denominator then quotient
  else if denominator < 2 * remainder then quotient + 1
  else
    match tie with
    | .toEven => if quotient % 2 = 0 then quotient else quotient + 1
    | .awayFromZero => quotient + 1

/-- A quotient without remainder is left as it is. -/
theorem roundDiv_mul (tie : Tie) (value : Nat) {denominator : Nat} (positive : 0 < denominator) :
    roundDiv tie (value * denominator) denominator = value := by
  simp [roundDiv, Nat.mul_div_cancel _ positive, positive]

/-- Rounding is within half a unit of the quotient. -/
theorem roundDiv_within_half (tie : Tie) (numerator : Nat) {denominator : Nat}
    (positive : 0 < denominator) :
    2 * numerator ≤ (2 * roundDiv tie numerator denominator + 1) * denominator ∧
      2 * (roundDiv tie numerator denominator * denominator) ≤ 2 * numerator + denominator := by
  have split := Nat.div_add_mod numerator denominator
  have small := Nat.mod_lt numerator positive
  have up : (numerator / denominator + 1) * denominator =
      denominator * (numerator / denominator) + denominator := by
    rw [Nat.add_mul, Nat.one_mul, Nat.mul_comm]
  have up' : (2 * (numerator / denominator) + 1) * denominator =
      2 * (denominator * (numerator / denominator)) + denominator := by
    rw [Nat.add_mul, Nat.one_mul, Nat.mul_assoc, Nat.mul_comm (numerator / denominator)]
  have up'' : (2 * (numerator / denominator + 1) + 1) * denominator =
      2 * (denominator * (numerator / denominator)) + 3 * denominator := by
    rw [Nat.add_mul, Nat.one_mul, Nat.mul_assoc, up]
    omega
  have down : numerator / denominator * denominator =
      denominator * (numerator / denominator) := Nat.mul_comm _ _
  unfold roundDiv
  dsimp only
  split
  · rw [up', down]; omega
  · split
    · rw [up'', up]; omega
    · cases tie with
      | awayFromZero => dsimp only; rw [up'', up]; omega
      | toEven =>
          dsimp only
          split
          · rw [up', down]; omega
          · rw [up'', up]; omega

end StratumMiner
