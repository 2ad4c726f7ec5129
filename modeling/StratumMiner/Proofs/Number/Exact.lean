import Mathlib
import StratumMiner.Number.DoubleOfNat

/-!
# Numbers that doubles hold exactly

A finite double stands for a rational number.  Rounding a ratio gives back the ratio itself whenever
some significand of fifty-three bits and some power of two from the least on make it up, and gives
infinity when such a ratio reaches `2 ^ 1024`.  So natural numbers up to `2 ^ 53` and products by
powers of two lose nothing.
-/

namespace StratumMiner

/-! ## Rounding quotients -/

/-- A whole quotient is not rounded. -/
theorem roundDiv_of_eq_mul {tie : Tie} {numerator denominator value : ℕ}
    (positive : 0 < denominator) (whole : numerator = value * denominator) :
    roundDiv tie numerator denominator = value := by
  rw [whole, roundDiv_mul tie value positive]

/-- Away from zero, half the denominator is added before dividing. -/
theorem roundDiv_awayFromZero {numerator denominator : ℕ} (positive : 0 < denominator) :
    roundDiv .awayFromZero numerator denominator =
      ⌊(numerator : ℚ) / denominator + 1 / 2⌋₊ := by
  have rational : (numerator : ℚ) / denominator + 1 / 2 =
      ((2 * numerator + denominator : ℕ) : ℚ) / (2 * denominator : ℕ) := by
    push_cast
    field_simp
  rw [rational, Nat.floor_div_eq_div]
  have split := Nat.div_add_mod numerator denominator
  have small := Nat.mod_lt numerator positive
  symm
  unfold roundDiv
  generalize numerator / denominator = quotient, numerator % denominator = remainder at split small
  dsimp only
  split
  · refine Nat.div_eq_of_lt_le ?_ ?_ <;> nlinarith
  · split <;> refine Nat.div_eq_of_lt_le ?_ ?_ <;> nlinarith

namespace Double

/-! ## The number that a double stands for -/

/-- The number without its sign. -/
def magnitude (value : Double) : ℚ :=
  value.significand * 2 ^ value.exponent

/-- The number that a finite double stands for. -/
def toRat (value : Double) : ℚ :=
  if value.isNegative then -value.magnitude else value.magnitude

theorem magnitude_nonneg (value : Double) : 0 ≤ value.magnitude := by
  unfold magnitude
  positivity

/-- A power of two is a quotient of two natural powers, one of which is one. -/
theorem zpow_two_eq (exponent : ℤ) :
    (2 : ℚ) ^ exponent = 2 ^ exponent.toNat / 2 ^ (-exponent).toNat := by
  rw [← zpow_natCast, ← zpow_natCast, ← zpow_sub₀ two_ne_zero]
  congr 1
  omega

/-- The magnitude is the ratio by which the double is written. -/
theorem magnitude_eq_div (value : Double) :
    value.magnitude = (value.numerator : ℚ) / value.denominator := by
  rw [magnitude, numerator, denominator, Nat.shiftLeft_eq, Nat.shiftLeft_eq, zpow_two_eq]
  push_cast
  ring

theorem significand_lt (value : Double) : value.significand < 2 ^ 53 := by
  have fraction : value.fraction < exponentWeight := Nat.mod_lt _ (by decide)
  unfold exponentWeight at fraction
  unfold significand exponentWeight
  split <;> omega

theorem neg_1074_le_exponent (value : Double) : -1074 ≤ value.exponent := by
  unfold exponent
  omega

/-- Only a zero has magnitude zero. -/
theorem magnitude_pos_iff (value : Double) : 0 < value.magnitude ↔ value.isZero = false := by
  have power : (0 : ℚ) < 2 ^ value.exponent := by positivity
  rw [magnitude, mul_pos_iff_of_pos_right power, Nat.cast_pos]
  unfold significand isZero exponentWeight
  by_cases field : value.exponentField = 0
  · simp [field, Nat.pos_iff_ne_zero]
  · simp [field]

/-- A double is above zero when it is neither a zero nor negative. -/
theorem toRat_pos_iff (value : Double) :
    0 < value.toRat ↔ value.isNegative = false ∧ value.isZero = false := by
  rw [← magnitude_pos_iff, toRat]
  have positive := value.magnitude_nonneg
  cases value.isNegative with
  | false => simp
  | true =>
      simp only [if_true, Bool.true_eq_false, false_and, iff_false, not_lt]
      linarith

/-! ## Bits put side by side -/

/-- The bits of a double that is put together from a sign, an exponent and a significand. -/
theorem toNat_bits {magnitude : ℕ} (negative : Bool) (fits : magnitude ≤ infinityBits) :
    ∃ sign, (sign = 0 ∨ sign = signWeight) ∧
      (UInt64.ofNat (magnitude + if negative then signWeight else 0)).toNat = magnitude + sign := by
  have signs : (if negative then signWeight else 0) = 0 ∨
      (if negative then signWeight else 0) = signWeight := by
    cases negative <;> simp
  refine ⟨_, signs, (UInt64.toNat_ofNat' ..).trans (Nat.mod_eq_of_lt ?_)⟩
  generalize (if negative then signWeight else 0) = sign at signs
  unfold infinityBits exponentWeight at fits
  unfold signWeight at signs
  omega

/-- The parts are found again, if the significand has its full length unless the exponent is the
least. -/
theorem ofParts (weight significand : ℕ) (negative : Bool) (small : significand < 2 ^ 53)
    (normal : weight = 0 ∨ 2 ^ 52 ≤ significand)
    (fits : weight * exponentWeight + significand < infinityBits) :
    let value : Double :=
      ⟨UInt64.ofNat (weight * exponentWeight + significand + if negative then signWeight else 0)⟩
    value.isFinite = true ∧ value.magnitude = significand * 2 ^ ((weight : ℤ) - 1074) := by
  intro value
  obtain ⟨sign, signs, bits⟩ := toNat_bits negative (Nat.le_of_lt fits)
  change value.bits.toNat = _ at bits
  unfold infinityBits exponentWeight at fits
  unfold signWeight at signs
  rcases Nat.lt_or_ge significand (2 ^ 52) with short | long
  · obtain rfl : weight = 0 := normal.resolve_right (Nat.not_le.mpr short)
    have field : value.exponentField = 0 := by
      simp only [exponentField, bits, exponentWeight]
      omega
    have fraction : value.fraction = significand := by
      simp only [Double.fraction, bits, exponentWeight]
      omega
    refine ⟨by simp [isFinite, field], ?_⟩
    simp [magnitude, Double.significand, exponent, field, fraction]
  · have field : value.exponentField = weight + 1 := by
      simp only [exponentField, bits, exponentWeight]
      omega
    have fraction : value.fraction = significand - 2 ^ 52 := by
      simp only [Double.fraction, bits, exponentWeight]
      omega
    have whole : value.significand = significand := by
      simp only [Double.significand, field, fraction, exponentWeight]
      rw [if_neg (Nat.succ_ne_zero weight)]
      omega
    have exponent : value.exponent = (weight : ℤ) - 1074 := by
      simp only [Double.exponent, field]
      omega
    refine ⟨?_, by rw [magnitude, whole, exponent]⟩
    simp only [isFinite, field, bne_iff_ne, ne_eq]
    omega

/-- The bits of infinity stand for no number. -/
theorem isFinite_infinity (negative : Bool) :
    (⟨UInt64.ofNat (infinityBits + if negative then signWeight else 0)⟩ : Double).isFinite =
      false := by
  cases negative <;> decide

/-! ## Rounding -/

/-- A ratio is at least a power of two when the integers on both sides say so. -/
theorem zpow_two_le_div_iff {numerator denominator : ℕ} (exponent : ℤ)
    (denominatorPos : 0 < denominator) :
    (2 : ℚ) ^ exponent ≤ numerator / denominator ↔
      denominator * 2 ^ exponent.toNat ≤ numerator * 2 ^ (-exponent).toNat := by
  have denominatorCast : (0 : ℚ) < denominator := by exact_mod_cast denominatorPos
  have power : (0 : ℚ) < 2 ^ (-exponent).toNat := by positivity
  rw [zpow_two_eq, div_le_div_iff₀ power denominatorCast, mul_comm]
  norm_cast

/-- The difference of the lengths of two numbers is where the leading bit of their ratio stands, or
one place too high. -/
theorem div_bounds {numerator denominator : ℕ} (numeratorPos : 0 < numerator)
    (denominatorPos : 0 < denominator) :
    (2 : ℚ) ^ ((Nat.log2 numerator : ℤ) - Nat.log2 denominator - 1) < numerator / denominator ∧
      (numerator : ℚ) / denominator <
        2 ^ ((Nat.log2 numerator : ℤ) - Nat.log2 denominator + 1) := by
  have numeratorLow : (2 : ℚ) ^ (Nat.log2 numerator : ℤ) ≤ numerator := by
    rw [zpow_natCast]
    exact_mod_cast Nat.log2_self_le numeratorPos.ne'
  have numeratorHigh : (numerator : ℚ) < 2 ^ ((Nat.log2 numerator : ℤ) + 1) := by
    exact_mod_cast (Nat.lt_log2_self : numerator < 2 ^ (numerator.log2 + 1))
  have denominatorLow : (2 : ℚ) ^ (Nat.log2 denominator : ℤ) ≤ denominator := by
    rw [zpow_natCast]
    exact_mod_cast Nat.log2_self_le denominatorPos.ne'
  have denominatorHigh : (denominator : ℚ) < 2 ^ ((Nat.log2 denominator : ℤ) + 1) := by
    exact_mod_cast (Nat.lt_log2_self : denominator < 2 ^ (denominator.log2 + 1))
  have denominatorCast : (0 : ℚ) < denominator := by exact_mod_cast denominatorPos
  constructor
  · rw [lt_div_iff₀ denominatorCast]
    calc (2 : ℚ) ^ ((Nat.log2 numerator : ℤ) - Nat.log2 denominator - 1) * denominator
        < 2 ^ ((Nat.log2 numerator : ℤ) - Nat.log2 denominator - 1) *
            2 ^ ((Nat.log2 denominator : ℤ) + 1) := by gcongr
      _ = 2 ^ (Nat.log2 numerator : ℤ) := by
          rw [← zpow_add₀ two_ne_zero]
          congr 1
          ring
      _ ≤ numerator := numeratorLow
  · rw [div_lt_iff₀ denominatorCast]
    calc (numerator : ℚ) < 2 ^ ((Nat.log2 numerator : ℤ) + 1) := numeratorHigh
      _ = 2 ^ ((Nat.log2 numerator : ℤ) - Nat.log2 denominator + 1) *
            2 ^ (Nat.log2 denominator : ℤ) := by
          rw [← zpow_add₀ two_ne_zero]
          congr 1
          ring
      _ ≤ 2 ^ ((Nat.log2 numerator : ℤ) - Nat.log2 denominator + 1) * denominator := by gcongr

/-- The guess is tried without leaving the integers. -/
theorem reaches_iff {numerator denominator : ℕ} (guess : ℤ) (denominatorPos : 0 < denominator) :
    (if 0 ≤ guess then decide (denominator <<< guess.toNat ≤ numerator)
      else decide (denominator ≤ numerator <<< (-guess).toNat)) = true ↔
      (2 : ℚ) ^ guess ≤ numerator / denominator := by
  rw [zpow_two_le_div_iff guess denominatorPos]
  rcases le_or_gt 0 guess with up | down
  · rw [if_pos up, decide_eq_true_iff, Nat.shiftLeft_eq,
      Int.toNat_of_nonpos (by omega : -guess ≤ 0), pow_zero, mul_one]
  · rw [if_neg (not_le.mpr down), decide_eq_true_iff, Nat.shiftLeft_eq,
      Int.toNat_of_nonpos down.le, pow_zero, mul_one]

/-- Where the leading bit of a ratio stands decides which bit is the last one kept. -/
theorem roundingExponent_eq {numerator denominator : ℕ} {leading : ℤ} (numeratorPos : 0 < numerator)
    (denominatorPos : 0 < denominator) (low : (2 : ℚ) ^ leading ≤ numerator / denominator)
    (high : (numerator : ℚ) / denominator < 2 ^ (leading + 1)) :
    roundingExponent numerator denominator = max (-1074) (leading - 52) := by
  obtain ⟨above, below⟩ := div_bounds numeratorPos denominatorPos
  have order {left right : ℤ} (less : (2 : ℚ) ^ left < 2 ^ right) : left < right :=
    (zpow_lt_zpow_iff_right₀ one_lt_two).mp less
  unfold roundingExponent
  dsimp only
  congr 1
  rcases le_or_gt ((2 : ℚ) ^ ((Nat.log2 numerator : ℤ) - Nat.log2 denominator))
    (numerator / denominator) with reached | unreached
  · rw [if_pos ((reaches_iff _ denominatorPos).mpr reached)]
    have first := order (low.trans_lt below)
    have second := order (reached.trans_lt high)
    omega
  · rw [if_neg ((reaches_iff _ denominatorPos).not.mpr (not_le.mpr unreached))]
    have first := order (low.trans_lt unreached)
    have second := order (above.trans high)
    omega

/-- Units of some power of two stay below a higher power when their count does. -/
theorem mul_zpow_lt_iff (count places : ℕ) (bottom : ℤ) :
    (count : ℚ) * 2 ^ bottom < 2 ^ (places + bottom) ↔ count < 2 ^ places := by
  have unit : (0 : ℚ) < 2 ^ bottom := by positivity
  rw [zpow_add₀ two_ne_zero, zpow_natCast, mul_lt_mul_iff_left₀ unit]
  exact_mod_cast Iff.rfl

/-- What a significand of fifty-three bits and a power of two from the least on make up. -/
def Representable (number : ℚ) : Prop :=
  ∃ (significand : ℕ) (exponent : ℤ), significand < 2 ^ 53 ∧ -1074 ≤ exponent ∧
    number = significand * 2 ^ exponent

theorem representable_magnitude (value : Double) : Representable value.magnitude :=
  ⟨value.significand, value.exponent, value.significand_lt, value.neg_1074_le_exponent, rfl⟩

/-- A representable number is a whole number of the last bit that is kept. -/
theorem Representable.scaled {number : ℚ} (representable : Representable number) {leading : ℤ}
    (low : (2 : ℚ) ^ leading ≤ number) (high : number < 2 ^ (leading + 1)) :
    ∃ significand : ℕ, number = significand * 2 ^ max (-1074) (leading - 52) ∧
      significand < 2 ^ 53 ∧ (-1074 ≤ leading - 52 → 2 ^ 52 ≤ significand) := by
  obtain ⟨significand, exponent, small, least, rfl⟩ := representable
  have kept : max (-1074) (leading - 52) ≤ exponent := by
    refine max_le least (not_lt.mp fun lost => not_lt.mpr low ?_)
    calc (significand : ℚ) * 2 ^ exponent < 2 ^ ((53 : ℕ) + exponent) :=
          (mul_zpow_lt_iff _ _ _).mpr small
      _ ≤ 2 ^ leading := zpow_le_zpow_right₀ one_le_two (by push_cast; omega)
  generalize last : max (-1074) (leading - 52) = bottom at kept
  have whole : (significand : ℚ) * 2 ^ exponent =
      (significand * 2 ^ (exponent - bottom).toNat : ℕ) * 2 ^ bottom := by
    push_cast
    rw [mul_assoc, ← zpow_natCast, ← zpow_add₀ two_ne_zero]
    congr 2
    omega
  rw [whole] at low high
  refine ⟨_, whole, ?_, fun full => ?_⟩
  · rw [← mul_zpow_lt_iff _ _ bottom]
    exact high.trans_le (zpow_le_zpow_right₀ one_le_two (by push_cast; omega))
  · rw [← not_lt, ← mul_zpow_lt_iff _ _ bottom, not_lt]
    exact le_trans (zpow_le_zpow_right₀ one_le_two (by push_cast; omega)) low

/-- A ratio that is a whole number of the last bit kept is put together from this number. -/
theorem ofRatio_eq (negative : Bool) {numerator denominator significand : ℕ} {bottom : ℤ}
    (numeratorPos : 0 < numerator) (denominatorPos : 0 < denominator)
    (exponentEq : roundingExponent numerator denominator = bottom)
    (whole : (numerator : ℚ) / denominator = significand * 2 ^ bottom) :
    ofRatio negative numerator denominator =
      ⟨UInt64.ofNat
        (min infinityBits ((bottom + 1074).toNat * exponentWeight + significand) +
          if negative then signWeight else 0)⟩ := by
  have rounded : roundDiv .toEven (numerator <<< (-bottom).toNat) (denominator <<< bottom.toNat) =
      significand := by
    rw [Nat.shiftLeft_eq, Nat.shiftLeft_eq]
    refine roundDiv_of_eq_mul (by positivity) ?_
    have denominatorCast : (denominator : ℚ) ≠ 0 := by exact_mod_cast denominatorPos.ne'
    rw [zpow_two_eq] at whole
    field_simp at whole
    have integral : numerator * 2 ^ (-bottom).toNat =
        denominator * significand * 2 ^ bottom.toNat := by
      exact_mod_cast whole
    rw [integral]
    ring
  unfold ofRatio
  dsimp only
  rw [exponentEq, rounded, if_neg numeratorPos.ne']

/-- Rounding leaves a representable ratio as it is, unless it is past the largest double. -/
theorem ofRatio_of_representable (negative : Bool) {numerator denominator : ℕ}
    (denominatorPos : 0 < denominator)
    (representable : Representable ((numerator : ℚ) / denominator)) :
    ((ofRatio negative numerator denominator).isFinite = true ↔
        (numerator : ℚ) / denominator < 2 ^ 1024) ∧
      ((numerator : ℚ) / denominator < 2 ^ 1024 →
        (ofRatio negative numerator denominator).magnitude = numerator / denominator) := by
  rcases Nat.eq_zero_or_pos numerator with rfl | numeratorPos
  · obtain ⟨finite, magnitude⟩ := ofParts 0 0 negative (by decide) (.inl rfl) (by decide)
    have zero : ofRatio negative 0 denominator =
        ⟨UInt64.ofNat (0 * exponentWeight + 0 + if negative then signWeight else 0)⟩ := by
      simp [ofRatio]
    rw [zero, finite, magnitude]
    simp
  · have positive : (0 : ℚ) < numerator / denominator := by positivity
    have low := Int.zpow_log_le_self one_lt_two positive
    have high := Int.lt_zpow_succ_log_self one_lt_two ((numerator : ℚ) / denominator)
    simp only [Nat.cast_ofNat] at low high
    generalize Int.log 2 ((numerator : ℚ) / denominator) = leading at low high
    have exponentEq := roundingExponent_eq numeratorPos denominatorPos low high
    obtain ⟨significand, whole, small, full⟩ := representable.scaled low high
    have bits := ofRatio_eq negative numeratorPos denominatorPos exponentEq whole
    have weight : ((max (-1074) (leading - 52) + 1074).toNat : ℤ) - 1074 =
        max (-1074) (leading - 52) := by
      omega
    rcases lt_or_ge ((numerator : ℚ) / denominator) (2 ^ 1024) with fits | overflows
    · have order : leading < 1024 := by
        rw [← zpow_lt_zpow_iff_right₀ (one_lt_two : (1 : ℚ) < 2)]
        exact low.trans_lt (by exact_mod_cast fits)
      have room : (max (-1074) (leading - 52) + 1074).toNat * exponentWeight + significand <
          infinityBits := by
        unfold infinityBits exponentWeight
        omega
      obtain ⟨finite, magnitude⟩ := ofParts _ significand negative small (by omega) room
      rw [bits, min_eq_right room.le]
      exact ⟨iff_of_true finite fits, fun _ => by rw [magnitude, weight, whole]⟩
    · have order : 1024 < leading + 1 := by
        rw [← zpow_lt_zpow_iff_right₀ (one_lt_two : (1 : ℚ) < 2)]
        exact lt_of_le_of_lt (by exact_mod_cast overflows) high
      have past : infinityBits ≤
          (max (-1074) (leading - 52) + 1074).toNat * exponentWeight + significand := by
        have long := full (by omega)
        unfold infinityBits exponentWeight
        omega
      rw [bits, min_eq_left past, isFinite_infinity]
      exact ⟨iff_of_false Bool.false_ne_true (not_lt.mpr overflows),
        fun fits => absurd fits (not_lt.mpr overflows)⟩

/-! ## Natural numbers and powers of two -/

theorem representable_natCast {value : ℕ} (small : value ≤ 2 ^ 53) : Representable value := by
  rcases Nat.lt_or_eq_of_le small with less | rfl
  · exact ⟨value, 0, less, by decide, by simp⟩
  · exact ⟨1, 53, by decide, by decide, by norm_num⟩

/-- A natural number of at most fifty-three bits, or `2 ^ 53`, is a double. -/
theorem magnitude_ofNat {value : ℕ} (small : value ≤ 2 ^ 53) :
    (ofNat value).magnitude = value := by
  have whole : (value : ℚ) / (1 : ℕ) = value := by simp
  have representable := representable_natCast small
  rw [← whole] at representable
  have below : (value : ℚ) / (1 : ℕ) < 2 ^ 1024 := by
    rw [whole]
    calc (value : ℚ) ≤ 2 ^ 53 := by exact_mod_cast small
      _ < 2 ^ 1024 := pow_lt_pow_right₀ one_lt_two (by decide)
  rw [ofNat, (ofRatio_of_representable false Nat.one_pos representable).2 below, whole]

theorem Representable.mul_two_pow {number : ℚ} (representable : Representable number)
    (places : ℕ) : Representable (number * 2 ^ places) := by
  obtain ⟨significand, exponent, small, least, rfl⟩ := representable
  refine ⟨significand, exponent + places, small, by omega, ?_⟩
  rw [mul_assoc, zpow_add₀ two_ne_zero, zpow_natCast]

/-- A product by a power of two is not rounded, unless it is past the largest double. -/
theorem mul_two_pow (value : Double) (places : ℕ) (few : places ≤ 53) :
    ((value.mul (ofNat (2 ^ places))).isFinite = true ↔
        value.magnitude * 2 ^ places < 2 ^ 1024) ∧
      (value.magnitude * 2 ^ places < 2 ^ 1024 →
        (value.mul (ofNat (2 ^ places))).magnitude = value.magnitude * 2 ^ places) := by
  have power := magnitude_ofNat (Nat.pow_le_pow_right Nat.two_pos few)
  have product : ((value.numerator * (ofNat (2 ^ places)).numerator : ℕ) : ℚ) /
      (value.denominator * (ofNat (2 ^ places)).denominator : ℕ) =
        value.magnitude * 2 ^ places := by
    push_cast at power ⊢
    rw [← power, magnitude_eq_div, magnitude_eq_div, mul_div_mul_comm]
  have representable := value.representable_magnitude.mul_two_pow places
  rw [← product] at representable ⊢
  exact ofRatio_of_representable _
    (Nat.mul_pos value.denominator_pos (ofNat (2 ^ places)).denominator_pos) representable

end Double

end StratumMiner
