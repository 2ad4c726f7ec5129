import StratumMiner.Text.Hex

/-!
# Nonce ranges

The nonces are the numbers below `2 ^ 32`. A range is half open, and its end may be `2 ^ 32`, so
the end is wider than a nonce. The nonce space is split between workers into consecutive ranges of
one length; the last one also takes what the division leaves over.
-/

namespace StratumMiner

/-- The number of nonces. -/
def nonceSpace : Nat := UInt32.size

/-- A nonce in reports: eight hexadecimal digits behind a mark of the base. -/
def displayNonce (nonce : UInt32) : String :=
  "0x" ++ Hex.padded 8 nonce.toNat

/-- The nonces from `start` on and before `stop`. -/
structure NonceRange where
  start : UInt32
  stop : Nat
  ordered : start.toNat ≤ stop
  bounded : stop ≤ nonceSpace
  deriving Repr, DecidableEq

namespace NonceRange

/-- All nonces. -/
def full : NonceRange :=
  ⟨0, nonceSpace, Nat.zero_le _, Nat.le_refl _⟩

/-- The range with these bounds, if they are in order and in the nonce space. -/
def ofBounds? (start : UInt32) (stop : Nat) : Option NonceRange :=
  if valid : start.toNat ≤ stop ∧ stop ≤ nonceSpace then some ⟨start, stop, valid.1, valid.2⟩
  else none

/-- The number of nonces in a range. -/
def length (range : NonceRange) : Nat :=
  range.stop - range.start.toNat

/-- Whether there is no nonce in a range. -/
def isEmpty (range : NonceRange) : Bool :=
  range.length == 0

/-- Whether a nonce is in a range. -/
def contains (range : NonceRange) (nonce : UInt32) : Bool :=
  range.start ≤ nonce && nonce.toNat < range.stop

/-- The bounds in hexadecimal, eight and nine digits wide. -/
def display (range : NonceRange) : String :=
  "[0x" ++ Hex.padded 8 range.start.toNat ++ ", 0x" ++ Hex.padded 9 range.stop ++ ")"

/-- Piece `index` of the nonce space cut into `count` pieces. -/
def piece (count : Nat) (atMost : count ≤ nonceSpace) (index : Fin count) : NonceRange :=
  let stride := nonceSpace / count
  have total : count * stride ≤ nonceSpace := Nat.mul_div_le _ _
  have after : (index.val + 1) * stride ≤ nonceSpace :=
    Nat.le_trans (Nat.mul_le_mul_right stride index.isLt) total
  have strideEq : (index.val + 1) * stride = index.val * stride + stride := Nat.succ_mul _ _
  have some' : 0 < stride :=
    Nat.div_pos atMost (Nat.lt_of_le_of_lt (Nat.zero_le _) index.isLt)
  have space : nonceSpace = 4294967296 := by decide
  have startEq : (UInt32.ofNat (index.val * stride)).toNat = index.val * stride := by
    rw [UInt32.toNat_ofNat', Nat.mod_eq_of_lt (by omega)]
  { start := UInt32.ofNat (index.val * stride)
    stop := if index.val + 1 = count then nonceSpace else index.val * stride + stride
    ordered := by rw [startEq]; split <;> omega
    bounded := by split <;> omega }

/-- The ranges of a number of workers, at most one to a nonce. -/
def partition (workers : Nat) : List NonceRange :=
  List.ofFn (piece (min workers nonceSpace) (Nat.min_le_right _ _))

/-- Range `index` of a partition, without the others. -/
def ofPartition? (workers index : Nat) : Option NonceRange :=
  if inside : index < min workers nonceSpace then
    some (piece (min workers nonceSpace) (Nat.min_le_right _ _) ⟨index, inside⟩)
  else none

/-- A single range of a partition is the one in the list of all. -/
theorem ofPartition?_eq_getElem? (workers index : Nat) :
    ofPartition? workers index = (partition workers)[index]? := by
  unfold ofPartition? partition
  split
  · next inside => rw [List.getElem?_ofFn, dif_pos inside]
  · next outside => rw [List.getElem?_ofFn, dif_neg outside]

end NonceRange

end StratumMiner
