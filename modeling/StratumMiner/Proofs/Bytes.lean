import Mathlib
import StratumMiner.Bytes

/-!
# Bytes, words and numbers

The two readings of a byte string as a number mirror each other, and each undoes the encoding of
fixed width.  A number is the sum of its digits at their places, and its encoding has those digits.
The order of byte strings of one length is the order of the numbers that they spell most significant
byte first.  The four bytes of a word are its encoding of width four.
-/

namespace StratumMiner.Bytes

/-! ## Numbers -/

@[simp] theorem toNatLE_append (low high : Bytes) :
    toNatLE (low ++ high) = toNatLE low + 256 ^ low.length * toNatLE high := by
  induction low with
  | nil => simp [toNatLE]
  | cons byte low ih =>
      simp only [List.cons_append, toNatLE, ih, List.length_cons, pow_succ]
      ring

theorem toNatLE_lt (bytes : Bytes) : toNatLE bytes < 256 ^ bytes.length := by
  induction bytes with
  | nil => simp [toNatLE]
  | cons byte rest ih =>
      have small := byte.toNat_lt
      simp only [toNatLE, List.length_cons, pow_succ]
      omega

theorem toNatBE_append_singleton (bytes : Bytes) (byte : UInt8) :
    toNatBE (bytes ++ [byte]) = toNatBE bytes * 256 + byte.toNat := by
  simp [toNatBE]

/-- Reading from the other end reverses the bytes. -/
theorem toNatBE_eq_toNatLE_reverse (bytes : Bytes) : toNatBE bytes = toNatLE bytes.reverse := by
  induction bytes using List.reverseRecOn with
  | nil => rfl
  | append_singleton bytes byte ih =>
      rw [toNatBE_append_singleton, List.reverse_append, List.reverse_singleton,
        List.singleton_append, toNatLE, ← ih]
      ring

theorem toNatBE_reverse (bytes : Bytes) : toNatBE bytes.reverse = toNatLE bytes := by
  rw [toNatBE_eq_toNatLE_reverse, List.reverse_reverse]

theorem toNatBE_cons (byte : UInt8) (rest : Bytes) :
    toNatBE (byte :: rest) = byte.toNat * 256 ^ rest.length + toNatBE rest := by
  simp only [toNatBE_eq_toNatLE_reverse, List.reverse_cons, toNatLE_append, List.length_reverse,
    toNatLE]
  ring

theorem toNatBE_lt (bytes : Bytes) : toNatBE bytes < 256 ^ bytes.length := by
  rw [toNatBE_eq_toNatLE_reverse, ← List.length_reverse]
  exact toNatLE_lt bytes.reverse

/-- Reading undoes writing, up to the digits that the width has no room for. -/
theorem toNatLE_ofNatLE (width value : Nat) :
    toNatLE (ofNatLE width value) = value % 256 ^ width := by
  induction width generalizing value with
  | zero => simp [ofNatLE, toNatLE, Nat.mod_one]
  | succ width ih =>
      have small : value % 256 % 2 ^ 8 = value % 256 := Nat.mod_eq_of_lt (by omega)
      rw [ofNatLE, toNatLE, ih, UInt8.toNat_ofNat', small, pow_succ', Nat.mod_mul]

theorem toNatBE_ofNatBE (width value : Nat) :
    toNatBE (ofNatBE width value) = value % 256 ^ width := by
  rw [ofNatBE, toNatBE_reverse, toNatLE_ofNatLE]

/-- Writing undoes reading. -/
theorem ofNatLE_toNatLE (bytes : Bytes) : ofNatLE bytes.length (toNatLE bytes) = bytes := by
  induction bytes with
  | nil => rfl
  | cons byte rest ih =>
      have small := byte.toNat_lt
      have digit : (byte.toNat + 256 * toNatLE rest) % 256 = byte.toNat := by omega
      have others : (byte.toNat + 256 * toNatLE rest) / 256 = toNatLE rest := by omega
      simp only [List.length_cons, ofNatLE, toNatLE, digit, others, ih, UInt8.ofNat_toNat]

theorem ofNatBE_toNatBE (bytes : Bytes) : ofNatBE bytes.length (toNatBE bytes) = bytes := by
  rw [ofNatBE, toNatBE_eq_toNatLE_reverse, ← List.length_reverse, ofNatLE_toNatLE,
    List.reverse_reverse]

/-! ## Digits -/

/-- The number that bytes spell is the sum of the digits at their places, the least significant
first. -/
theorem toNatLE_ofFn : ∀ {length : Nat} (bytes : Fin length → UInt8),
    toNatLE (List.ofFn bytes) = ∑ position, (bytes position).toNat * 256 ^ position.val := by
  intro length
  induction length with
  | zero =>
      intro bytes
      rfl
  | succ length ih =>
      intro bytes
      rw [List.ofFn_succ, toNatLE, ih, Fin.sum_univ_succ, Finset.mul_sum]
      simp only [Fin.val_zero, pow_zero, mul_one, Fin.val_succ, pow_succ]
      congr 1
      apply Finset.sum_congr rfl
      intro position _
      ring

/-- The same with the most significant digit first. -/
theorem toNatBE_ofFn : ∀ {length : Nat} (bytes : Fin length → UInt8),
    toNatBE (List.ofFn bytes) =
      ∑ position, (bytes position).toNat * 256 ^ (length - 1 - position.val) := by
  intro length
  induction length with
  | zero =>
      intro bytes
      rfl
  | succ length ih =>
      intro bytes
      rw [List.ofFn_succ, toNatBE_cons, List.length_ofFn, ih, Fin.sum_univ_succ]
      simp only [Fin.val_zero, Fin.val_succ, Nat.add_sub_cancel, Nat.sub_zero]
      congr 1
      apply Finset.sum_congr rfl
      intro position _
      rw [Nat.sub_sub, Nat.add_comm 1]

theorem ofNatLE_eq_ofFn : ∀ width value : Nat,
    ofNatLE width value =
      List.ofFn fun position : Fin width => UInt8.ofNat (value / 256 ^ position.val % 256) := by
  intro width
  induction width with
  | zero =>
      intro value
      rfl
  | succ width ih =>
      intro value
      rw [ofNatLE, ih, List.ofFn_succ]
      simp only [Fin.val_zero, pow_zero, Nat.div_one, Fin.val_succ, pow_succ',
        Nat.div_div_eq_div_mul]

theorem ofNatBE_eq_ofFn (width value : Nat) :
    ofNatBE width value = List.ofFn fun position : Fin width =>
      UInt8.ofNat (value / 256 ^ (width - 1 - position.val) % 256) := by
  apply List.ext_getElem
  · rw [length_ofNatBE, List.length_ofFn]
  · intro position _ _
    simp only [ofNatBE, List.getElem_reverse, ofNatLE_eq_ofFn, List.getElem_ofFn,
      List.length_ofFn]

/-- A number moved up by some digits has them at higher places, and zeros below. -/
theorem mul_pow_div_mod (value up place : Nat) :
    value * 256 ^ up / 256 ^ place % 256 =
      if place < up then 0 else value / 256 ^ (place - up) % 256 := by
  split
  · next below =>
      have split : 256 ^ up = 256 * 256 ^ (up - place - 1) * 256 ^ place := by
        rw [← pow_succ', ← pow_add]
        congr 1
        omega
      rw [split, ← mul_assoc, Nat.mul_div_cancel _ (by positivity), mul_left_comm,
        Nat.mul_mod_right]
  · next above =>
      have split : 256 ^ place = 256 ^ up * 256 ^ (place - up) := by
        rw [← pow_add]
        congr 1
        omega
      rw [split, ← Nat.div_div_eq_div_mul, Nat.mul_div_cancel _ (by positivity)]

/-! ## Order -/

/-- The order of byte strings of one length is the order of the numbers they spell. -/
theorem compareLex_eq_compare (left right : Bytes) (sameLength : left.length = right.length) :
    compareLex left right = compare (toNatBE left) (toNatBE right) := by
  induction left generalizing right with
  | nil =>
      obtain rfl := List.eq_nil_of_length_eq_zero sameLength.symm
      rfl
  | cons high lefts ih =>
      cases right with
      | nil => simp at sameLength
      | cons other rights =>
          have lengths : lefts.length = rights.length := by simpa using sameLength
          have leftSmall := toNatBE_lt lefts
          have rightSmall := toNatBE_lt rights
          rw [compareLex, toNatBE_cons, toNatBE_cons, ← lengths]
          rw [← lengths] at rightSmall
          rcases lt_trichotomy high.toNat other.toNat with less | equal | greater
          · have below : high.toNat * 256 ^ lefts.length + toNatBE lefts <
                other.toNat * 256 ^ lefts.length + toNatBE rights := by nlinarith
            rw [if_pos (UInt8.lt_iff_toNat_lt.mpr less), compare_lt_iff_lt.mpr below]
          · obtain rfl := UInt8.toNat_inj.mp equal
            simp only [UInt8.lt_irrefl, if_false, ih rights lengths]
            simp [compare, compareOfLessAndEq]
          · have above : other.toNat * 256 ^ lefts.length + toNatBE rights <
                high.toNat * 256 ^ lefts.length + toNatBE lefts := by nlinarith
            rw [if_neg (UInt8.lt_iff_toNat_lt.not.mpr (Nat.lt_asymm greater)),
              if_pos (UInt8.lt_iff_toNat_lt.mpr greater), compare_gt_iff_gt.mpr above]

/-! ## Vectors -/

theorem toVector?_eq_some_iff {length : Nat} {bytes : Bytes} {vector : Vector UInt8 length} :
    toVector? length bytes = some vector ↔ bytes = vector.toList := by
  constructor
  · intro made
    rw [toVector?] at made
    split at made
    · cases made
      rfl
    · cases made
  · intro same
    cases same
    rw [toVector?, dif_pos vector.length_toList]
    rfl

/-! ## Words -/

/-- The bytes of a word do not overlap, so putting them side by side adds them up. -/
theorem toNat_wordBE (first second third fourth : UInt8) :
    (wordBE first second third fourth).toNat =
      ((first.toNat * 256 + second.toNat) * 256 + third.toNat) * 256 + fourth.toNat := by
  have firstSmall := first.toNat_lt
  have secondSmall := second.toNat_lt
  have thirdSmall := third.toNat_lt
  have fourthSmall := fourth.toNat_lt
  have lowest : third.toNat <<< 8 ||| fourth.toNat = third.toNat * 256 + fourth.toNat := by
    rw [← Nat.shiftLeft_add_eq_or_of_lt (by omega), Nat.shiftLeft_eq]
  have lower : second.toNat <<< 16 ||| (third.toNat * 256 + fourth.toNat) =
      (second.toNat * 256 + third.toNat) * 256 + fourth.toNat := by
    rw [← Nat.shiftLeft_add_eq_or_of_lt (by omega), Nat.shiftLeft_eq]
    ring
  have whole : first.toNat <<< 24 ||| ((second.toNat * 256 + third.toNat) * 256 + fourth.toNat) =
      ((first.toNat * 256 + second.toNat) * 256 + third.toNat) * 256 + fourth.toNat := by
    rw [← Nat.shiftLeft_add_eq_or_of_lt (by omega), Nat.shiftLeft_eq]
    ring
  have shifted (byte : UInt8) (amount : Nat) (room : amount ≤ 24) :
      byte.toNat <<< amount % 2 ^ 32 = byte.toNat <<< amount := by
    rw [Nat.shiftLeft_eq]
    refine Nat.mod_eq_of_lt ?_
    calc byte.toNat * 2 ^ amount < 2 ^ 8 * 2 ^ amount :=
          Nat.mul_lt_mul_of_pos_right byte.toNat_lt (by positivity)
      _ ≤ 2 ^ 8 * 2 ^ 24 := Nat.mul_le_mul_left _ (Nat.pow_le_pow_right (by decide) room)
      _ = 2 ^ 32 := by norm_num
  simp only [wordBE, UInt32.toNat_or, UInt32.toNat_shiftLeft, UInt8.toNat_toUInt32,
    UInt32.reduceToNat, Nat.reduceMod, shifted _ 24 (by decide), shifted _ 16 (by decide),
    shifted _ 8 (by decide), Nat.or_assoc, lowest, lower, whole]

/-- The four bytes of a word spell it again. -/
theorem wordBE_ofWordBE (word : UInt32) :
    wordBE ((ofWordBE word).get 0) ((ofWordBE word).get 1) ((ofWordBE word).get 2)
      ((ofWordBE word).get 3) = word := by
  apply UInt32.toNat_inj.mp
  have small := word.toNat_lt
  simp [toNat_wordBE, ofWordBE, Nat.shiftRight_eq_div_pow]
  omega

theorem wordLE_ofWordLE (word : UInt32) :
    wordLE ((ofWordLE word).get 0) ((ofWordLE word).get 1) ((ofWordLE word).get 2)
      ((ofWordLE word).get 3) = word :=
  wordBE_ofWordBE word

/-- The four bytes of a word are its encoding of width four. -/
theorem toList_ofWordLE (word : UInt32) : (ofWordLE word).toList = ofNatLE 4 word.toNat := by
  simp only [ofWordLE, Vector.toList_mk, ofNatLE, List.cons.injEq, and_true, ← UInt8.toNat_inj]
  refine ⟨?_, ?_, ?_, ?_⟩ <;> simp [Nat.shiftRight_eq_div_pow, Nat.div_div_eq_div_mul]

theorem toList_ofWordBE (word : UInt32) : (ofWordBE word).toList = ofNatBE 4 word.toNat := by
  rw [ofNatBE, ← toList_ofWordLE]
  rfl

end StratumMiner.Bytes
