import StratumMiner.Number.Double

/-!
# Doubles of small natural numbers

The double nearest to a positive number below `2 ^ 64` is finite, positive and not zero: its
significand has fifty-three bits and its exponent stays far below the largest.
-/

namespace StratumMiner.Double

/-- For a whole number the last bit kept is fifty-two places below the first. -/
theorem roundingExponent_one {value : Nat} (positive : value ≠ 0) :
    roundingExponent value 1 = (Nat.log2 value : Int) - 52 := by
  have low : 2 ^ Nat.log2 value ≤ value := Nat.log2_self_le positive
  have logOne : Nat.log2 1 = 0 := by decide
  unfold roundingExponent
  simp [Nat.shiftLeft_eq, low, logOne]
  omega

/-- A quotient below a bound rounds to at most the bound. -/
theorem roundDiv_le {tie : Tie} {numerator denominator bound : Nat} (positive : 0 < denominator)
    (below : numerator ≤ bound * denominator) :
    roundDiv tie numerator denominator ≤ bound := by
  have near := (roundDiv_within_half tie numerator positive).2
  generalize roundDiv tie numerator denominator = rounded at near
  apply Nat.le_of_lt_succ
  apply Nat.lt_of_mul_lt_mul_right (a := denominator)
  have expand : (bound + 1) * denominator = bound * denominator + denominator := by
    rw [Nat.add_mul, Nat.one_mul]
  rw [expand]
  omega

/-- A quotient at least one rounds to at least one. -/
theorem one_le_roundDiv {tie : Tie} {numerator denominator : Nat} (positive : 0 < denominator)
    (above : denominator ≤ numerator) : 1 ≤ roundDiv tie numerator denominator := by
  have near := (roundDiv_within_half tie numerator positive).1
  generalize roundDiv tie numerator denominator = rounded at near
  rcases rounded with _ | rounded
  · simp at near
    omega
  · omega

/-- A whole number is rounded at its exponent, and the parts are put side by side. -/
theorem ofNat_eq {value significand : Nat} {exponent : Int} (positive : value ≠ 0)
    (exponentEq : roundingExponent value 1 = exponent)
    (rounded : roundDiv .toEven (value <<< (-exponent).toNat) (1 <<< exponent.toNat) =
      significand) :
    ofNat value =
      ⟨UInt64.ofNat
        (min infinityBits ((exponent + 1074).toNat * exponentWeight + significand))⟩ := by
  unfold ofNat ofRatio
  rw [exponentEq]
  dsimp only
  rw [rounded, if_neg positive, if_neg Bool.false_ne_true, Nat.add_zero]

/-- The bits of the double of a positive number below `2 ^ 64`, as an exponent and a significand. -/
theorem ofNat_bits {value : Nat} (positive : value ≠ 0) (small : value < UInt64.size) :
    ∃ exponent significand : Nat, exponent ≤ 1085 ∧ 1 ≤ significand ∧
      significand ≤ 2 * exponentWeight ∧
      (ofNat value).bits.toNat = exponent * exponentWeight + significand := by
  have log : Nat.log2 value < 64 := (Nat.log2_lt positive).2 small
  have low : 2 ^ Nat.log2 value ≤ value := Nat.log2_self_le positive
  have high : value < 2 ^ (Nat.log2 value + 1) := Nat.lt_log2_self
  have exponentEq := roundingExponent_one positive
  have scaled : ∃ significand : Nat, 1 ≤ significand ∧ significand ≤ 2 * exponentWeight ∧
      roundDiv .toEven (value <<< (-((Nat.log2 value : Int) - 52)).toNat)
        (1 <<< ((Nat.log2 value : Int) - 52).toNat) = significand := by
    simp only [Nat.shiftLeft_eq, Nat.one_mul]
    have denominatorPos : 0 < 2 ^ ((Nat.log2 value : Int) - 52).toNat := Nat.two_pow_pos _
    have weight : 2 * exponentWeight = 2 ^ 53 := by decide
    refine ⟨_, one_le_roundDiv denominatorPos ?_, roundDiv_le denominatorPos ?_, rfl⟩
    · calc 2 ^ ((Nat.log2 value : Int) - 52).toNat ≤ 2 ^ Nat.log2 value :=
            Nat.pow_le_pow_right (by decide) (by omega)
        _ ≤ value := low
        _ ≤ value * 2 ^ (-((Nat.log2 value : Int) - 52)).toNat :=
            Nat.le_mul_of_pos_right _ (Nat.two_pow_pos _)
    · calc value * 2 ^ (-((Nat.log2 value : Int) - 52)).toNat
          ≤ 2 ^ (Nat.log2 value + 1) * 2 ^ (-((Nat.log2 value : Int) - 52)).toNat :=
            Nat.mul_le_mul_right _ (Nat.le_of_lt high)
        _ = 2 * exponentWeight * 2 ^ ((Nat.log2 value : Int) - 52).toNat := by
            rw [weight, ← Nat.pow_add, ← Nat.pow_add]
            congr 1
            omega
  obtain ⟨significand, atLeast, atMost, rounded⟩ := scaled
  refine ⟨((Nat.log2 value : Int) - 52 + 1074).toNat, significand, by omega, atLeast, atMost, ?_⟩
  have bound : ((Nat.log2 value : Int) - 52 + 1074).toNat ≤ 1085 := by omega
  rw [ofNat_eq positive exponentEq rounded]
  unfold infinityBits
  unfold exponentWeight at atMost ⊢
  rw [Nat.min_eq_right (by omega), UInt64.toNat_ofNat', Nat.mod_eq_of_lt (by omega)]

/-- The double of a positive number below `2 ^ 64` is finite. -/
theorem isFinite_ofNat {value : Nat} (positive : value ≠ 0) (small : value < UInt64.size) :
    (ofNat value).isFinite = true := by
  obtain ⟨exponent, significand, bound, _, atMost, bits⟩ := ofNat_bits positive small
  unfold exponentWeight at atMost bits
  simp only [isFinite, exponentField, exponentWeight, bits, bne_iff_ne, ne_eq]
  omega

/-- The double of a number below `2 ^ 64` is not negative. -/
theorem isNegative_ofNat {value : Nat} (positive : value ≠ 0) (small : value < UInt64.size) :
    (ofNat value).isNegative = false := by
  obtain ⟨exponent, significand, bound, _, atMost, bits⟩ := ofNat_bits positive small
  unfold exponentWeight at atMost bits
  simp only [isNegative, signWeight, bits, decide_eq_false_iff_not]
  omega

/-- The double of a positive number below `2 ^ 64` is not zero. -/
theorem isZero_ofNat {value : Nat} (positive : value ≠ 0) (small : value < UInt64.size) :
    (ofNat value).isZero = false := by
  obtain ⟨exponent, significand, bound, atLeast, atMost, bits⟩ := ofNat_bits positive small
  unfold exponentWeight at atMost bits
  simp only [isZero, exponentField, fraction, exponentWeight, bits, Bool.and_eq_false_iff,
    beq_eq_false_iff_ne, ne_eq]
  omega

end StratumMiner.Double
