import Mathlib
import StratumMiner.Mining.Work
import StratumMiner.Proofs.Number.Exact
import StratumMiner.Proofs.Target

/-!
# Difficulties and their targets

The target of a difficulty is the target of difficulty one divided by it, rounded down, in exact
arithmetic from the least double to those whose scaled value saturates.  The difficulty that a
digest reached is the same division the other way round, and both roundings agree: a digest that
meets the target of a whole difficulty reached at least that difficulty, and one that reached more
meets it.
-/

namespace StratumMiner

/-! ## The target of difficulty one -/

namespace Target

theorem toNat_max : max.toUInt256.toNat = 0xffff * 2 ^ 208 := by
  decide +kernel

/-- No bit of it leaves the word when binary places are added. -/
theorem toNat_max_shiftLeft :
    (max.toUInt256 <<< PoolDifficulty.fractionBits).toNat = max.toUInt256.toNat * 2 ^ 32 := by
  rw [PoolDifficulty.fractionBits, BitVec.toNat_shiftLeft, Nat.shiftLeft_eq, toNat_max]
  norm_num

end Target

namespace PoolDifficulty

/-! ## The scaled difficulty -/

/-- The natural number nearest to a number that is not negative, the upper one of two. -/
def roundAway (number : ℚ) : ℕ :=
  ⌊number + 1 / 2⌋₊

/-- The number by which the target of difficulty one is divided: the difficulty in units of its
last binary place, at least one and at most `2 ^ 128 - 1`. -/
def divisor (difficulty : ℚ) : ℕ :=
  min (max (roundAway (difficulty * 2 ^ 32)) 1) (2 ^ 128 - 1)

/-- The same number in the arithmetic of doubles: a product that is rounded, rounded to a whole
number, and clamped.  An infinite product gives the largest number. -/
def divisorInDoubles (value : Double) : ℕ :=
  let product := value.mul (Double.ofNat (2 ^ 32))
  if product.isFinite then
    min (max (roundDiv .awayFromZero product.numerator product.denominator) 1) (2 ^ 128 - 1)
  else 2 ^ 128 - 1

theorem divisor_pos (difficulty : ℚ) : 0 < divisor difficulty := by
  unfold divisor
  omega

theorem divisor_lt (difficulty : ℚ) : divisor difficulty < 2 ^ 128 := by
  unfold divisor
  omega

theorem divisor_mono {left right : ℚ} (less : left ≤ right) : divisor left ≤ divisor right := by
  unfold divisor roundAway
  gcongr

theorem toRat_value (difficulty : PoolDifficulty) :
    difficulty.value.toRat = difficulty.value.magnitude := by
  rw [Double.toRat, difficulty.notNegative, if_neg Bool.false_ne_true]

/-- The scaled difficulty is the exact one, rounded once. -/
theorem scaled_eq_divisor (difficulty : PoolDifficulty) :
    difficulty.scaled = divisor difficulty.value.toRat := by
  have positive := difficulty.value.denominator_pos
  have rounded : roundDiv .awayFromZero (difficulty.value.numerator <<< fractionBits)
      difficulty.value.denominator = roundAway (difficulty.value.toRat * 2 ^ 32) := by
    rw [roundDiv_awayFromZero positive, roundAway, toRat_value, Double.magnitude_eq_div,
      fractionBits, Nat.shiftLeft_eq, Nat.cast_mul, Nat.cast_pow, Nat.cast_ofNat,
      div_mul_eq_mul_div]
  rw [scaled, rounded]
  rfl

/-- The arithmetic of doubles loses nothing on the way to the scaled difficulty. -/
theorem divisorInDoubles_eq {value : Double} (notNegative : value.isNegative = false) :
    divisorInDoubles value = divisor value.toRat := by
  have exact : value.toRat = value.magnitude := by
    rw [Double.toRat, notNegative, if_neg Bool.false_ne_true]
  obtain ⟨finite, magnitude⟩ := value.mul_two_pow 32 (by decide)
  unfold divisorInDoubles
  dsimp only
  split
  · next isFinite =>
      rw [roundDiv_awayFromZero (Double.denominator_pos _), ← Double.magnitude_eq_div,
        magnitude (finite.mp isFinite), ← exact]
      rfl
  · next isInfinite =>
      have large : (2 : ℚ) ^ 1024 ≤ value.toRat * 2 ^ 32 := by
        rw [exact]
        exact not_lt.mp (finite.not.mp isInfinite)
      have saturated : 2 ^ 128 - 1 ≤ roundAway (value.toRat * 2 ^ 32) := by
        refine Nat.le_floor ?_
        calc ((2 ^ 128 - 1 : ℕ) : ℚ) ≤ 2 ^ 128 := by norm_num
          _ ≤ 2 ^ 1024 := pow_le_pow_right₀ one_le_two (by decide)
          _ ≤ value.toRat * 2 ^ 32 := large
          _ ≤ value.toRat * 2 ^ 32 + 1 / 2 := by norm_num
      unfold divisor
      omega

/-! ## The target of a pool's difficulty -/

/-- The target of a difficulty is a quotient of natural numbers. -/
theorem toNat_toTarget (difficulty : PoolDifficulty) :
    difficulty.toTarget.toUInt256.toNat =
      Target.max.toUInt256.toNat * 2 ^ 32 / divisor difficulty.value.toRat := by
  have small := (divisor_lt difficulty.value.toRat).trans (by decide : 2 ^ 128 < 2 ^ 256)
  rw [toTarget, Target.toUInt256_ofUInt256, BitVec.toNat_udiv, Target.toNat_max_shiftLeft,
    BitVec.toNat_ofNat, scaled_eq_divisor, Nat.mod_eq_of_lt small]

/-- A digest can meet it: even the largest divisor leaves something of the target. -/
theorem toTarget_ne_zero (difficulty : PoolDifficulty) : difficulty.toTarget ≠ Target.zero := by
  intro zero
  have number := difficulty.toNat_toTarget
  have nothing : Target.zero.toUInt256.toNat = 0 := by decide +kernel
  have small := divisor_lt difficulty.value.toRat
  rw [zero, nothing, Target.toNat_max, eq_comm,
    Nat.div_eq_zero_iff_lt (divisor_pos difficulty.value.toRat)] at number
  omega

/-- Harder is smaller. -/
theorem toTarget_antitone {left right : PoolDifficulty}
    (less : left.value.toRat ≤ right.value.toRat) :
    right.toTarget.toUInt256.toNat ≤ left.toTarget.toUInt256.toNat := by
  rw [toNat_toTarget, toNat_toTarget]
  exact Nat.div_le_div_left (divisor_mono less) (divisor_pos _)

theorem divisor_natCast {whole : ℕ} (positive : 0 < whole) (small : whole < 2 ^ 96) :
    divisor whole = whole * 2 ^ 32 := by
  have rounded : roundAway ((whole : ℚ) * 2 ^ 32) = whole * 2 ^ 32 := by
    rw [roundAway, Nat.floor_eq_iff (by positivity)]
    constructor
    · push_cast
      linarith
    · push_cast
      linarith
  rw [divisor, rounded]
  omega

/-- Whole difficulties lose nothing by the binary places. -/
theorem toNat_toTarget_natCast {difficulty : PoolDifficulty} {whole : ℕ}
    (exact : difficulty.value.toRat = whole) (small : whole < 2 ^ 96) :
    difficulty.toTarget.toUInt256.toNat = Target.max.toUInt256.toNat / whole := by
  have positive : 0 < whole := by
    have above := difficulty.value.toRat_pos_iff.mpr ⟨difficulty.notNegative, difficulty.notZero⟩
    rw [exact] at above
    exact_mod_cast above
  rw [toNat_toTarget, exact, divisor_natCast positive small,
    Nat.mul_div_mul_right _ _ (by positivity)]

/-- Work with a job id and such a target can be mined. -/
theorem validate_toTarget (difficulty : PoolDifficulty) {work : Work} (named : work.job.id ≠ "")
    (targeted : work.target = difficulty.toTarget) : work.validate = .ok () := by
  have target : work.target.isZero = false := by
    rw [targeted, Target.isZero, beq_eq_false_iff_ne]
    exact difficulty.toTarget_ne_zero
  rw [Work.validate, if_neg named, target, if_neg Bool.false_ne_true]

/-- A positive finite double, read as the number it stands for, is a difficulty, and its target is
the target of difficulty one divided by it.  The divisor is the exact one although it is computed
in doubles; no bit is lost when the dividend is shifted; the target is never zero, falls as the
difficulty grows, and is the exact quotient for whole difficulties. -/
theorem toTarget_exact (value : Double) (finite : value.isFinite = true)
    (positive : 0 < value.toRat) :
    ∃ difficulty, ofDouble? value = some difficulty ∧
      divisorInDoubles value = divisor value.toRat ∧
      difficulty.scaled = divisor value.toRat ∧ 0 < divisor value.toRat ∧
      (Target.max.toUInt256 <<< fractionBits).toNat = Target.max.toUInt256.toNat * 2 ^ 32 ∧
      difficulty.toTarget.toUInt256.toNat =
        Target.max.toUInt256.toNat * 2 ^ 32 / divisor value.toRat ∧
      difficulty.toTarget ≠ Target.zero ∧
      (∀ work : Work, work.job.id ≠ "" → work.target = difficulty.toTarget →
        work.validate = .ok ()) ∧
      (∀ harder : PoolDifficulty, value.toRat ≤ harder.value.toRat →
        harder.toTarget.toUInt256.toNat ≤ difficulty.toTarget.toUInt256.toNat) ∧
      ∀ whole : ℕ, value.toRat = whole → whole < 2 ^ 96 →
        difficulty.toTarget.toUInt256.toNat = Target.max.toUInt256.toNat / whole := by
  obtain ⟨notNegative, notZero⟩ := value.toRat_pos_iff.mp positive
  let difficulty : PoolDifficulty := ⟨value, finite, notNegative, notZero⟩
  have usable : ofDouble? value = some difficulty :=
    dif_pos ⟨finite, notNegative, notZero⟩
  exact ⟨difficulty, usable, divisorInDoubles_eq notNegative, difficulty.scaled_eq_divisor,
    divisor_pos _, Target.toNat_max_shiftLeft, difficulty.toNat_toTarget,
    difficulty.toTarget_ne_zero, fun _ => difficulty.validate_toTarget,
    fun harder => @toTarget_antitone difficulty harder,
    fun _ => @toNat_toTarget_natCast difficulty _⟩

/-- At half the difficulty the target is twice as large. -/
theorem toTarget_exact_half :
    ∃ half, ofDouble? ⟨0x3fe0000000000000⟩ = some half ∧
      half.toTarget.toUInt256.toNat = 2 * Target.max.toUInt256.toNat := by
  obtain ⟨half, usable, -, scaled, -, -, number, -⟩ :=
    toTarget_exact ⟨0x3fe0000000000000⟩ (by decide)
      ((Double.toRat_pos_iff _).mpr (by decide))
  have units : ∀ difficulty, ofDouble? ⟨0x3fe0000000000000⟩ = some difficulty →
      difficulty.scaled = 2 ^ 31 := by
    rintro _ ⟨⟩
    decide +kernel
  refine ⟨half, usable, ?_⟩
  rw [number, ← scaled, units half usable]
  generalize Target.max.toUInt256.toNat = whole
  omega

end PoolDifficulty

/-! ## The difficulty of a digest -/

namespace Difficulty

/-- The difficulty that a digest reached, as a number. -/
theorem toNat_ofDigest (digest : Bytes32) :
    (ofDigest digest).value.toNat =
      if Bytes.toNatLE digest.toList = 0 then 2 ^ 64 - 1
      else min (Target.max.toUInt256.toNat / Bytes.toNatLE digest.toList) (2 ^ 64 - 1) := by
  have number : (Target.ofDigest digest).toUInt256.toNat = Bytes.toNatLE digest.toList := by
    rw [Target.toNat_toUInt256, Target.ofDigest, Vector.toList_reverse, Bytes.toNatBE_reverse]
  have zero : (Target.ofDigest digest).toUInt256 = 0 ↔ Bytes.toNatLE digest.toList = 0 := by
    rw [← number, ← BitVec.toNat_inj]
    rfl
  unfold ofDigest
  dsimp only
  split
  · next empty =>
      rw [if_pos (zero.mp empty)]
      rfl
  · next filled =>
      rw [if_neg (zero.not.mp filled), UInt256.saturate, BitVec.toNat_udiv, number]
      exact UInt64.toNat_ofNat_of_lt' (Nat.lt_of_le_of_lt (Nat.min_le_right _ _) (by decide))

/-! ## Both divisions agree

The target is `whole / difficulty` and a digest `digest` reached `whole / digest`, both rounded
down.  The two roundings can only disagree by one, as long as the square of the difficulty is no
larger than `whole`. -/

section Quotients

variable {whole difficulty digest : ℕ}

theorem le_div_of_lt_div (met : digest < whole / difficulty) (positive : 0 < digest) :
    difficulty ≤ whole / digest := by
  rw [Nat.le_div_iff_mul_le positive, mul_comm]
  exact (Nat.mul_le_mul_right _ met.le).trans (Nat.div_mul_le_self whole difficulty)

theorem lt_div_of_succ_le_div (square : difficulty * difficulty ≤ whole)
    (difficultyPos : 0 < difficulty) (positive : 0 < digest)
    (reached : difficulty + 1 ≤ whole / digest) : digest < whole / difficulty := by
  rw [Nat.le_div_iff_mul_le positive] at reached
  rw [← Nat.succ_le_iff, Nat.le_div_iff_mul_le difficultyPos]
  -- A small digest meets the target by the square alone; a larger one pays for the rounding.
  rcases Nat.lt_or_ge digest difficulty with below | above
  · exact (Nat.mul_le_mul_right difficulty below).trans square
  · calc digest.succ * difficulty = difficulty * digest + difficulty := by
          rw [Nat.succ_mul, mul_comm]
      _ ≤ difficulty * digest + digest := by omega
      _ = (difficulty + 1) * digest := (Nat.succ_mul ..).symm
      _ ≤ whole := reached

theorem div_div_self_of_square_le (square : difficulty * difficulty ≤ whole)
    (difficultyPos : 0 < difficulty) : whole / (whole / difficulty) = difficulty := by
  have above : difficulty ≤ whole / difficulty :=
    (Nat.le_div_iff_mul_le difficultyPos).mpr square
  have rest : whole < whole / difficulty * difficulty + difficulty := by
    rw [← Nat.succ_mul]
    exact Nat.lt_mul_of_div_lt (Nat.lt_succ_self _) difficultyPos
  refine Nat.div_eq_of_lt_le ?_ ?_
  · rw [mul_comm]
    exact Nat.div_mul_le_self whole difficulty
  · calc whole < whole / difficulty * difficulty + difficulty := rest
      _ ≤ difficulty * (whole / difficulty) + whole / difficulty := by
          rw [mul_comm]
          omega
      _ = (difficulty + 1) * (whole / difficulty) := (Nat.succ_mul ..).symm

end Quotients

theorem toNat_injective {left right : Difficulty}
    (equal : left.value.toNat = right.value.toNat) : left = right := by
  cases left
  cases right
  rw [Difficulty.mk.injEq]
  exact UInt64.toNat_inj.mp equal

/-- The target of a difficulty that doubles hold exactly is one quotient. -/
theorem toNat_toTarget_ofDifficulty {difficulty : Difficulty}
    (positive : 1 ≤ difficulty.value.toNat) (small : difficulty.value.toNat ≤ 2 ^ 53) :
    (PoolDifficulty.ofDifficulty difficulty).toTarget.toUInt256.toNat =
      Target.max.toUInt256.toNat / difficulty.value.toNat := by
  refine PoolDifficulty.toNat_toTarget_natCast ?_ (small.trans_lt (by decide))
  rw [PoolDifficulty.toRat_value]
  change (Double.ofNat (max difficulty.value.toNat 1)).magnitude = _
  rw [max_eq_left positive, Double.magnitude_ofNat small]

/-- Up to difficulty `2 ^ 53`, a digest that meets the target of a difficulty reached at least this
difficulty, one that reached more meets the target, and the target itself, read as a digest, reached
exactly the difficulty.  The zero digest, which reached the largest number, is among them. -/
theorem ofDigest_agrees_with_target (difficulty : Difficulty)
    (positive : 1 ≤ difficulty.value.toNat) (small : difficulty.value.toNat ≤ 2 ^ 53)
    (digest : Bytes32) :
    let target := (PoolDifficulty.ofDifficulty difficulty).toTarget
    (target.isMetBy digest = true →
        difficulty.value.toNat ≤ (ofDigest digest).value.toNat) ∧
      (difficulty.value.toNat + 1 ≤ (ofDigest digest).value.toNat →
        target.isMetBy digest = true) ∧
      (Bytes.toNatLE digest.toList = target.toUInt256.toNat → ofDigest digest = difficulty) ∧
      Bytes.toNatLE target.bytes.reverse.toList = target.toUInt256.toNat := by
  intro target
  have number : target.toUInt256.toNat = _ := toNat_toTarget_ofDifficulty positive small
  have square : difficulty.value.toNat * difficulty.value.toNat ≤ Target.max.toUInt256.toNat := by
    rw [Target.toNat_max]
    exact (Nat.mul_le_mul small small).trans (by norm_num)
  have above : 0 < Target.max.toUInt256.toNat / difficulty.value.toNat :=
    Nat.lt_of_lt_of_le positive ((Nat.le_div_iff_mul_le positive).mpr square)
  have reached := toNat_ofDigest digest
  rw [Target.isMetBy_iff, ← Target.toNat_toUInt256, number]
  refine ⟨fun met => ?_, fun more => ?_, fun equal => toNat_injective ?_, ?_⟩
  · split at reached
    · omega
    · next filled =>
        have quotient := le_div_of_lt_div met (Nat.pos_of_ne_zero filled)
        omega
  · split at reached
    · next empty =>
        rw [empty]
        exact above
    · next filled =>
        exact lt_div_of_succ_le_div square positive (Nat.pos_of_ne_zero filled)
          (more.trans (reached.trans_le (Nat.min_le_left _ _)))
  · rw [equal, if_neg above.ne', div_div_self_of_square_le square positive] at reached
    omega
  · rw [Vector.toList_reverse, ← Bytes.toNatBE_eq_toNatLE_reverse, ← Target.toNat_toUInt256,
      number]

/-- The target of the largest difficulty among them reached exactly this difficulty. -/
theorem ofDigest_agrees_with_target_largest :
    ofDigest (PoolDifficulty.ofDifficulty ⟨2 ^ 53⟩).toTarget.bytes.reverse = ⟨2 ^ 53⟩ := by
  obtain ⟨-, -, exact, number⟩ := ofDigest_agrees_with_target ⟨2 ^ 53⟩ (by decide) (by decide)
    (PoolDifficulty.ofDifficulty ⟨2 ^ 53⟩).toTarget.bytes.reverse
  exact exact number

end Difficulty

end StratumMiner
