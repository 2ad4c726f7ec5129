import Mathlib
import StratumMiner.Difficulty
import StratumMiner.Proofs.Bytes

/-!
# Meeting a target is a comparison of numbers

A target is a number of 256 bits, and each such number is a target.  A digest and a target are
compared byte by byte, most significant byte first.  That is the order of the two numbers, and two
targets are ordered in the same way.
-/

namespace StratumMiner.Target

/-- The number of a target is the one that its bytes spell. -/
theorem toNat_toUInt256 (target : Target) :
    target.toUInt256.toNat = Bytes.toNatBE target.bytes.toList := by
  have small := Bytes.toNatBE_lt target.bytes.toList
  rw [Vector.length_toList] at small
  rw [toUInt256, UInt256.ofBytes, BitVec.toNat_ofNat]
  exact Nat.mod_eq_of_lt (small.trans_eq (by norm_num))

/-- The target of a number has that number. -/
@[simp] theorem toUInt256_ofUInt256 (value : UInt256) : (ofUInt256 value).toUInt256 = value := by
  apply BitVec.eq_of_toNat_eq
  have bytes : (ofUInt256 value).bytes.toList = Bytes.ofNatBE 32 value.toNat := by
    simp [ofUInt256, UInt256.toBytes, Bytes.vectorOfNatBE, Vector.toList]
  rw [toNat_toUInt256, bytes, Bytes.toNatBE_ofNatBE]
  exact Nat.mod_eq_of_lt (value.isLt.trans_eq (by norm_num))

/-- The order of a digest and a target is that of the numbers they spell. -/
theorem order_eq_compare (target : Target) (digest : Bytes32) :
    target.order digest =
      compare (Bytes.toNatLE digest.toList) (Bytes.toNatBE target.bytes.toList) := by
  rw [order, ofDigest, Vector.toList_reverse,
    Bytes.compareLex_eq_compare _ _ (by simp), Bytes.toNatBE_reverse]

/-- A digest meets a target when it spells the smaller number. -/
theorem isMetBy_iff (target : Target) (digest : Bytes32) :
    target.isMetBy digest = true ↔
      Bytes.toNatLE digest.toList < Bytes.toNatBE target.bytes.toList := by
  rw [isMetBy, order_eq_compare, beq_iff_eq, compare_lt_iff_lt]

/-! ## Targets among each other -/

/-- The order of two targets.  The first byte in which they differ decides, as it does between a
digest and a target. -/
def byteOrder (left right : Target) : Ordering :=
  Bytes.compareLex left.bytes.toList right.bytes.toList

/-- The order of two targets is that of their numbers. -/
theorem byteOrder_eq_order (left right : Target) :
    left.byteOrder right = UInt256.order left.toUInt256 right.toUInt256 := by
  rw [byteOrder, UInt256.order, toNat_toUInt256, toNat_toUInt256]
  apply Bytes.compareLex_eq_compare
  rw [Vector.length_toList, Vector.length_toList]

/-- A larger target is met by all digests that meet the smaller one. -/
theorem isMetBy_of_byteOrder {lower upper : Target} {digest : Bytes32}
    (larger : lower.byteOrder upper ≠ .gt) (met : lower.isMetBy digest = true) :
    upper.isMetBy digest = true := by
  rw [byteOrder_eq_order, UInt256.order, compare_le_iff_le, toNat_toUInt256,
    toNat_toUInt256] at larger
  rw [isMetBy_iff] at met ⊢
  exact met.trans_le larger

theorem isMetBy_zero (digest : Bytes32) : zero.isMetBy digest = false := by
  have nothing : Bytes.toNatBE zero.bytes.toList = 0 := by decide
  rw [← Bool.not_eq_true, isMetBy_iff, nothing]
  exact Nat.not_lt_zero _

theorem toList_eq_ofFn (bytes : Bytes32) :
    bytes.toList = List.ofFn fun position : Fin 32 => bytes[position] := by
  rw [← Vector.toList_ofFn]
  apply congrArg
  exact Vector.ofFn_getElem.symm

/-- All bytes of a digest count: it meets a target just when it is the smaller number, the sum of
its bytes at their places from the low end, and of those of the target from the high end.  Targets
are ordered as their numbers, so a digest that meets one meets every one that is not smaller.  No
digest meets zero. -/
theorem isMetBy_all_bytes (target : Target) (digest : Bytes32) :
    (target.isMetBy digest = true ↔
      ∑ position : Fin 32, digest[position].toNat * 256 ^ position.val <
        ∑ position : Fin 32, target.bytes[position].toNat * 256 ^ (31 - position.val)) ∧
      (∀ other : Target,
        target.byteOrder other = UInt256.order target.toUInt256 other.toUInt256 ∧
          (target.byteOrder other ≠ .gt → target.isMetBy digest = true →
            other.isMetBy digest = true)) ∧
      zero.isMetBy digest = false := by
  refine ⟨?_, ?_, isMetBy_zero digest⟩
  · rw [isMetBy_iff, toList_eq_ofFn, toList_eq_ofFn, Bytes.toNatLE_ofFn, Bytes.toNatBE_ofFn]
  · intro other
    constructor
    · exact byteOrder_eq_order target other
    · intro larger met
      exact isMetBy_of_byteOrder larger met

/-- The digest one meets the target two, and so the target three, which differs from it in the last
byte alone. -/
theorem isMetBy_all_bytes_one :
    (decode 0x03000002).byteOrder (decode 0x03000003) = .lt ∧
      (decode 0x03000002).isMetBy (ofUInt256 1).bytes.reverse = true ∧
      (decode 0x03000003).isMetBy (ofUInt256 1).bytes.reverse = true := by
  have larger : (decode 0x03000002).byteOrder (decode 0x03000003) = .lt := by decide +kernel
  have met : (decode 0x03000002).isMetBy (ofUInt256 1).bytes.reverse = true := by decide +kernel
  refine ⟨larger, met, ?_⟩
  apply ((isMetBy_all_bytes (decode 0x03000002) _).2.1 (decode 0x03000003)).2
  · rw [larger]
    decide
  · exact met

end StratumMiner.Target
