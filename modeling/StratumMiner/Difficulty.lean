import StratumMiner.Number.DoubleOfNat
import StratumMiner.Number.Style
import StratumMiner.Number.UInt256
import StratumMiner.Text.Hex

/-!
# Targets and difficulties

A digest meets a target when it is the smaller number; digests are read least significant byte
first, targets most significant byte first. Block headers carry a target in compact form, pools set
one through a difficulty: the target of difficulty one divided by it. A pool may send fractions, so
its difficulty is a positive finite double and the division is done with thirty-two binary places.
The difficulty that a digest reached is the same division the other way round.
-/

namespace StratumMiner

/-- A 256-bit target, most significant byte first. -/
structure Target where
  bytes : Bytes32
  deriving Repr, DecidableEq

namespace Target

/-- The target that no digest meets. -/
def zero : Target :=
  ⟨Vector.replicate 32 0⟩

/-- The target of difficulty one. -/
def max : Target :=
  ⟨Vector.ofFn fun position => if position.val = 4 ∨ position.val = 5 then 0xff else 0⟩

/-- The largest mantissa of the compact form that is not negative. -/
def maxMantissa : UInt32 := 0x7fffff

/-- Byte `index` of a three-byte mantissa, most significant first. -/
def mantissaByte (mantissa : UInt32) (index : Nat) : UInt8 :=
  match index with
  | 0 => (mantissa >>> 16).toUInt8
  | 1 => (mantissa >>> 8).toUInt8
  | _ => mantissa.toUInt8

/-- The target of a compact form: one byte of exponent and three of mantissa. Exponents up to three
shift the mantissa down, larger ones move its bytes up, and bytes that leave the target are dropped.
A mantissa with its sign bit set stands for no positive number and gives the zero target. -/
def decode (compact : UInt32) : Target :=
  let exponent := (compact >>> 24).toNat
  let mantissa := compact &&& 0xffffff
  let shifted := if exponent ≤ 3 then mantissa >>> UInt32.ofNat (8 * (3 - exponent)) else mantissa
  if maxMantissa < shifted then zero
  else
    let first := Nat.max exponent 3
    ⟨Vector.ofFn fun position =>
      if 32 ≤ position.val + first ∧ position.val + first < 35 then
        mantissaByte shifted (position.val + first - 32)
      else 0⟩

/-- Whether this is the target that no digest meets. -/
def isZero (target : Target) : Bool :=
  target == zero

/-- A digest with its most significant byte first. -/
def ofDigest (digest : Bytes32) : Target :=
  ⟨digest.reverse⟩

/-- The order of a digest, read as a number, and the target. -/
def order (target : Target) (digest : Bytes32) : Ordering :=
  Bytes.compareLex (ofDigest digest).bytes.toList target.bytes.toList

/-- Whether a digest is strictly below the target. -/
def isMetBy (target : Target) (digest : Bytes32) : Bool :=
  target.order digest == .lt

/-- The target as a number. -/
def toUInt256 (target : Target) : UInt256 :=
  UInt256.ofBytes target.bytes

/-- The number as a target. -/
def ofUInt256 (value : UInt256) : Target :=
  ⟨UInt256.toBytes value⟩

/-- The hexadecimal digits of the target. -/
def display (target : Target) : String :=
  Hex.encode target.bytes.toList

end Target

/-- A whole difficulty, as reached by a digest. -/
structure Difficulty where
  value : UInt64
  deriving Repr, DecidableEq

namespace Difficulty

/-- The difficulty that a digest reached: how many times it fits into the target of difficulty
one. The zero digest reached more than any number says. -/
def ofDigest (digest : Bytes32) : Difficulty :=
  let value := (Target.ofDigest digest).toUInt256
  if value = 0 then ⟨0xffffffffffffffff⟩
  else ⟨UInt256.saturate (Target.max.toUInt256 / value)⟩

/-- The units of displayed difficulties, largest first. -/
def units : List (Nat × String) :=
  [(1000000000000000, "P"), (1000000000000, "T"), (1000000000, "G"), (1000000, "M"), (1000, "K")]

/-- The difficulty in the largest unit it reaches, with at least three digits in all. -/
def display (difficulty : Difficulty) : String :=
  let value := Double.ofNat difficulty.value.toNat
  match units.find? fun entry => value.reaches entry.1 with
  | none => toString difficulty.value.toNat
  | some (unit, suffix) =>
      let scaled := value.div (Double.ofNat unit)
      let places := if scaled.reaches 100 then 0 else if scaled.reaches 10 then 1 else 2
      scaled.writeFixed places ++ suffix

end Difficulty

/-- A difficulty set by a pool: a positive finite double. -/
structure PoolDifficulty where
  value : Double
  finite : value.isFinite = true
  notNegative : value.isNegative = false
  notZero : value.isZero = false
  deriving Repr, DecidableEq

namespace PoolDifficulty

/-- The difficulty with this value, if the value is positive and finite. -/
def ofDouble? (value : Double) : Option PoolDifficulty :=
  if usable : value.isFinite = true ∧ value.isNegative = false ∧ value.isZero = false then
    some ⟨value, usable.1, usable.2.1, usable.2.2⟩
  else none

/-- A whole difficulty as a pool would set it; zero counts as one. -/
def ofDifficulty (difficulty : Difficulty) : PoolDifficulty :=
  have positive : max difficulty.value.toNat 1 ≠ 0 := by
    omega
  have small : max difficulty.value.toNat 1 < UInt64.size :=
    Nat.max_lt.2 ⟨difficulty.value.toNat_lt, by decide⟩
  { value := Double.ofNat (max difficulty.value.toNat 1)
    finite := Double.isFinite_ofNat positive small
    notNegative := Double.isNegative_ofNat positive small
    notZero := Double.isZero_ofNat positive small }

/-- The binary places kept when a difficulty is turned into a target. -/
def fractionBits : Nat := 32

/-- The difficulty in units of its last binary place, rounded away from zero on a tie, at least one
and at most `2 ^ 128 - 1`. -/
def scaled (difficulty : PoolDifficulty) : Nat :=
  let rounded :=
    roundDiv .awayFromZero (difficulty.value.numerator <<< fractionBits)
      difficulty.value.denominator
  min (max rounded 1) 0xffffffffffffffffffffffffffffffff

/-- The target of the difficulty: the target of difficulty one divided by it. -/
def toTarget (difficulty : PoolDifficulty) : Target :=
  Target.ofUInt256
    ((Target.max.toUInt256 <<< fractionBits) / BitVec.ofNat 256 difficulty.scaled)

/-- A whole difficulty below `2 ^ 64` is shown in units, any other with all its digits. -/
def display (difficulty : PoolDifficulty) : String :=
  if difficulty.value.isWhole && !difficulty.value.reaches UInt64.size then
    Difficulty.display ⟨UInt64.ofNat difficulty.value.floor⟩
  else difficulty.value.write .plain

end PoolDifficulty

end StratumMiner
