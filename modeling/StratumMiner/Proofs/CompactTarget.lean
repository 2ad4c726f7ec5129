import Mathlib
import StratumMiner.Proofs.Target

/-!
# The number of a target in compact form

A compact form has an exponent and a mantissa of three bytes.  The bytes of the mantissa are put
into a buffer of thirty-two bytes, one after the other, each where the exponent says; none is put
outside of the buffer, for those that would come before it are dropped.  What stands in the buffer
is the mantissa, moved up by as many bytes as the exponent is above three, without what does not fit
into 256 bits.
-/

namespace StratumMiner.CompactTarget

/-- The exponent of a compact form is its highest byte. -/
def exponent (compact : UInt32) : Nat :=
  compact.toNat / 2 ^ 24

/-- The mantissa is the rest.  An exponent below three moves it down. -/
def mantissa (compact : UInt32) : Nat :=
  if exponent compact ≤ 3 then
    (compact.toNat % 2 ^ 24) >>> (8 * (3 - exponent compact))
  else compact.toNat % 2 ^ 24

/-! ## Putting bytes into a buffer -/

/-- The buffer with a byte put in, if the position is one of the buffer. -/
def put? (buffer : Bytes32) (position : Nat) (byte : UInt8) : Option Bytes32 :=
  if inside : position < 32 then some (buffer.set position byte) else none

/-- The buffer with a byte of a mantissa whose bytes begin `first` places before the end.  A byte
that would come before the buffer is dropped. -/
def place? (first : Nat) (mantissa : UInt32) (buffer : Bytes32) (index : Nat) : Option Bytes32 :=
  if first ≤ 32 + index then
    put? buffer (32 + index - first) (Target.mantissaByte mantissa index)
  else some buffer

/-- The target in the buffer behind all bytes of the mantissa, if none was put outside of it.  Up to
exponent three the mantissa stands at the end. -/
def decode? (compact : UInt32) : Option Target :=
  if 0x7fffff < mantissa compact then some Target.zero
  else
    ((List.range 3).foldlM
        (place? (max (exponent compact) 3) (UInt32.ofNat (mantissa compact)))
        Target.zero.bytes).map Target.mk

/-- The buffer behind the first `count` bytes of the mantissa. -/
def filled (first : Nat) (mantissa : UInt32) (count : Nat) : Bytes32 :=
  Vector.ofFn fun position =>
    if 32 ≤ position.val + first ∧ position.val + first < 32 + count then
      Target.mantissaByte mantissa (position.val + first - 32)
    else 0

/-- One byte more. -/
theorem place?_filled {first count : Nat} {mantissa : UInt32} (room : count < first) :
    place? first mantissa (filled first mantissa count) count =
      some (filled first mantissa (count + 1)) := by
  have others (position : Nat) (other : position + first ≠ 32 + count) :
      (32 ≤ position + first ∧ position + first < 32 + (count + 1)) =
        (32 ≤ position + first ∧ position + first < 32 + count) := by
    apply propext
    omega
  rw [place?]
  split
  · next notDropped =>
      rw [put?, dif_pos (by omega), Option.some.injEq]
      apply Vector.ext
      intro position small
      rw [Vector.getElem_set]
      simp only [filled, Vector.getElem_ofFn]
      split
      · next here =>
          rw [if_pos (by omega)]
          congr 1
          omega
      · next elsewhere => simp only [others position (by omega)]
  · next dropped =>
      rw [Option.some.injEq]
      apply Vector.ext
      intro position small
      simp only [filled, Vector.getElem_ofFn, others position (by omega)]

/-- As long as the bytes begin early enough, all are put inside of the buffer or dropped. -/
theorem foldlM_place? {first : Nat} (mantissa : UInt32) : ∀ {count : Nat}, count ≤ first →
    (List.range count).foldlM (place? first mantissa) Target.zero.bytes =
      some (filled first mantissa count) := by
  intro count
  induction count with
  | zero =>
      intro _
      rw [List.range_zero, List.foldlM_nil, Option.pure_def, Option.some.injEq]
      apply Vector.ext
      intro position small
      rw [filled, Vector.getElem_ofFn, if_neg (by omega)]
      exact Vector.getElem_replicate small
  | succ count ih =>
      intro room
      rw [List.range_succ, List.foldlM_append, ih (Nat.le_of_lt room)]
      simp only [Option.bind_eq_bind, Option.bind_some, List.foldlM_cons, List.foldlM_nil,
        place?_filled room, Option.pure_def]

/-! ## The words of the decoder -/

theorem mantissa_lt (compact : UInt32) : mantissa compact < 2 ^ 24 := by
  have whole : compact.toNat % 2 ^ 24 < 2 ^ 24 := Nat.mod_lt _ (by decide)
  rw [mantissa]
  split
  · exact (Nat.shiftRight_le _ _).trans_lt whole
  · exact whole

theorem toNat_ofNat_mantissa (compact : UInt32) :
    (UInt32.ofNat (mantissa compact)).toNat = mantissa compact :=
  UInt32.toNat_ofNat_of_lt' ((mantissa_lt compact).trans (by decide))

theorem toNat_shiftRight (compact : UInt32) : (compact >>> 24).toNat = exponent compact := by
  rw [UInt32.toNat_shiftRight, Nat.shiftRight_eq_div_pow]
  rfl

theorem toNat_and (compact : UInt32) : (compact &&& 0xffffff).toNat = compact.toNat % 2 ^ 24 := by
  rw [UInt32.toNat_and]
  exact Nat.and_two_pow_sub_one_eq_mod compact.toNat 24

theorem shifted_eq (compact : UInt32) :
    (if exponent compact ≤ 3 then
        (compact &&& 0xffffff) >>> UInt32.ofNat (8 * (3 - exponent compact))
      else compact &&& 0xffffff) = UInt32.ofNat (mantissa compact) := by
  apply UInt32.toNat_inj.mp
  rw [toNat_ofNat_mantissa, mantissa]
  split
  · next small =>
      have amount : 8 * (3 - exponent compact) % 2 ^ 32 % 32 = 8 * (3 - exponent compact) := by
        omega
      rw [UInt32.toNat_shiftRight, toNat_and, UInt32.toNat_ofNat', amount]
  · exact toNat_and compact

theorem decode_eq (compact : UInt32) :
    Target.decode compact =
      if 0x7fffff < mantissa compact then Target.zero
      else ⟨filled (max (exponent compact) 3) (UInt32.ofNat (mantissa compact)) 3⟩ := by
  have negative : Target.maxMantissa < UInt32.ofNat (mantissa compact) ↔
      0x7fffff < mantissa compact := by
    rw [UInt32.lt_iff_toNat_lt, toNat_ofNat_mantissa]
    rfl
  rw [Target.decode]
  simp only [toNat_shiftRight, shifted_eq, negative]
  rfl

/-- The decoder gives what stands in the buffer. -/
theorem decode?_eq (compact : UInt32) : decode? compact = some (Target.decode compact) := by
  rw [decode?, decode_eq]
  split
  · rfl
  · rw [foldlM_place? _ (le_max_right _ 3), Option.map_some]

/-! ## The number -/

theorem mantissaByte_eq (mantissa : UInt32) {index : Nat} (inside : index < 3) :
    Target.mantissaByte mantissa index =
      UInt8.ofNat (mantissa.toNat / 256 ^ (2 - index) % 256) := by
  apply UInt8.toNat_inj.mp
  interval_cases index <;> simp [Target.mantissaByte, Nat.shiftRight_eq_div_pow]

/-- The bytes in the buffer are the digits of the mantissa, moved up. -/
theorem toList_filled {first : Nat} (room : 3 ≤ first) {mantissa : UInt32}
    (small : mantissa.toNat < 2 ^ 24) :
    (filled first mantissa 3).toList = Bytes.ofNatBE 32 (mantissa.toNat * 256 ^ (first - 3)) := by
  rw [filled, Vector.toList_ofFn, Bytes.ofNatBE_eq_ofFn]
  apply congrArg
  funext position
  have inside := position.isLt
  rw [Bytes.mul_pow_div_mod]
  split
  · next here =>
      rw [mantissaByte_eq mantissa (by omega), if_neg (by omega)]
      congr 4
      omega
  · next elsewhere =>
      split
      · rfl
      · next above =>
          -- The digit is above those of the mantissa, which has three.
          have nothing : mantissa.toNat / 256 ^ (32 - 1 - position.val - (first - 3)) = 0 := by
            apply Nat.div_eq_of_lt
            calc mantissa.toNat < 256 ^ 3 := small
              _ ≤ 256 ^ (32 - 1 - position.val - (first - 3)) :=
                Nat.pow_le_pow_right (by decide) (by omega)
          rw [nothing]
          rfl

theorem toNatBE_decode (compact : UInt32) :
    Bytes.toNatBE (Target.decode compact).bytes.toList =
      if 0x7fffff < mantissa compact then 0
      else mantissa compact * 256 ^ (max (exponent compact) 3 - 3) % 2 ^ 256 := by
  rw [decode_eq]
  split
  · decide
  · have small : (UInt32.ofNat (mantissa compact)).toNat < 2 ^ 24 := by
      rw [toNat_ofNat_mantissa]
      exact mantissa_lt compact
    rw [toList_filled (le_max_right _ 3) small, Bytes.toNatBE_ofNatBE, toNat_ofNat_mantissa]
    norm_num

/-- The target of a compact form is the mantissa, moved up by the bytes that the exponent is above
three and cut to 256 bits, or zero if the mantissa has its sign bit set.  It is what stands in the
buffer, outside of which no byte is put. -/
theorem decode_exact (compact : UInt32) :
    let exponent := compact.toNat / 2 ^ 24
    let mantissa :=
      if exponent ≤ 3 then (compact.toNat % 2 ^ 24) >>> (8 * (3 - exponent))
      else compact.toNat % 2 ^ 24
    Bytes.toNatBE (Target.decode compact).bytes.toList =
        (if 0x7fffff < mantissa then 0
          else mantissa * 256 ^ (max exponent 3 - 3) % 2 ^ 256) ∧
      decode? compact = some (Target.decode compact) :=
  ⟨toNatBE_decode compact, decode?_eq compact⟩

/-- Exponent thirty-three moves the highest byte of the mantissa out of the target. -/
example : Target.decode 0x21123456 = Target.ofUInt256 (0x3456 <<< 240) := by
  decide +kernel

end StratumMiner.CompactTarget
