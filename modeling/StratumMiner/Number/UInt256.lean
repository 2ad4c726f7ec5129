import StratumMiner.Bytes

/-!
# 256-bit unsigned numbers

Targets and digests are compared and divided as numbers of 256 bits. They are bit vectors, so a
shift drops the bits that leave the word and every result is below `2 ^ 256` by construction.
-/

namespace StratumMiner

/-- A number below `2 ^ 256`. -/
abbrev UInt256 := BitVec 256

namespace UInt256

/-- The number spelled by thirty-two bytes, most significant first. -/
def ofBytes (bytes : Bytes32) : UInt256 :=
  BitVec.ofNat 256 (Bytes.toNatBE bytes.toList)

/-- The thirty-two bytes of a number, most significant first. -/
def toBytes (value : UInt256) : Bytes32 :=
  Bytes.vectorOfNatBE 32 value.toNat

/-- The number as 64 bits, or the largest such number if it does not fit. -/
def saturate (value : UInt256) : UInt64 :=
  UInt64.ofNat (min value.toNat (UInt64.size - 1))

/-- The quotient, unless the divisor is zero. -/
def divide? (left right : UInt256) : Option UInt256 :=
  if right = 0 then none else some (left / right)

/-- The order of two numbers. -/
def order (left right : UInt256) : Ordering :=
  compare left.toNat right.toNat

end UInt256

end StratumMiner
