import Mathlib
import StratumMiner.Proofs.Text.HexReading

/-!
# Hexadecimal text is decoded to what it says

The readers of bytes and of words succeed on every text that spells bytes or a word that fits.  What
a text spells does not depend on the case of its letters, so whatever has been written reads back,
also when the case of any letter has been changed on the way.
-/

namespace StratumMiner.HexReading

/-! ## Digits -/

theorem toNat_lt_of_mem_digits : ∀ char ∈ digits, char.toNat < 128 := by
  simp [digits]

theorem isUpper_iff {char : Char} : char.isUpper = true ↔ 65 ≤ char.toNat ∧ char.toNat ≤ 90 := by
  simp [Char.isUpper, UInt32.le_iff_toNat_le]

/-- Every character is worth what the readers take it for. -/
theorem digit?_eq (char : Char) : digit? char = (Hex.digitValue? char).map UInt8.toNat := by
  rcases Nat.lt_or_ge char.toNat 128 with ascii | other
  · have agree := digit?_ascii ⟨char.toNat, ascii⟩
    rwa [Char.ofNat_toNat] at agree
  · have same : char.toLower = char := by
      refine Char.toLower_eq_of_not_isUpper (isUpper_iff.not.mpr ?_)
      omega
    have absent : char ∉ digits := fun member =>
      Nat.not_lt.mpr other (toNat_lt_of_mem_digits char member)
    have unknown : Hex.digitValue? char = none := by
      simp only [Hex.digitValue?]
      grind
    rw [digit?, same, List.idxOf?_eq_none_iff.mpr absent, unknown, Option.map_none]

theorem digitValue?_of_digit? {char : Char} {value : Nat} (known : digit? char = some value) :
    ∃ digit, Hex.digitValue? char = some digit ∧ digit.toNat = value := by
  rw [digit?_eq] at known
  exact Option.map_eq_some_iff.mp known

/-- The case of a digit does not matter. -/
@[simp] theorem digit?_toLower (char : Char) : digit? char.toLower = digit? char := by
  rw [digit?, digit?, Char.toLower_toLower_eq_toLower]

/-- A digit takes one byte of text. -/
theorem utf8Size_of_digit? {char : Char} {value : Nat} (known : digit? char = some value) :
    char.utf8Size = 1 := by
  obtain ⟨digit, digitEq, -⟩ := digitValue?_of_digit? known
  have ascii := (digitValue?_lt digitEq).1
  exact Char.utf8Size_eq_one_iff.mpr (UInt32.le_iff_toNat_le.mpr (Nat.le_of_lt_succ ascii))

/-! ## Bytes -/

theorem bytes?_cons_cons_eq_some_iff {high low : Char} {rest : List Char} {bytes : Bytes} :
    bytes? (high :: low :: rest) = some bytes ↔
      ∃ highValue lowValue others, digit? high = some highValue ∧ digit? low = some lowValue ∧
        bytes? rest = some others ∧ bytes = UInt8.ofNat (16 * highValue + lowValue) :: others := by
  simp only [bytes?, Option.bind_eq_bind, Option.bind_eq_some_iff, Option.some.injEq]
  constructor
  · rintro ⟨highValue, highEq, lowValue, lowEq, others, restEq, same⟩
    exact ⟨highValue, lowValue, others, highEq, lowEq, restEq, same.symm⟩
  · rintro ⟨highValue, lowValue, others, highEq, lowEq, restEq, same⟩
    exact ⟨highValue, highEq, lowValue, lowEq, others, restEq, same.symm⟩

/-- What a text spells does not depend on the case of its letters. -/
theorem bytes?_map_toLower (chars : List Char) :
    bytes? (chars.map Char.toLower) = bytes? chars := by
  fun_induction bytes? chars with
  | case1 => rfl
  | case2 => rfl
  | case3 high low rest ih => simp only [List.map_cons, bytes?, digit?_toLower, ih]

/-- Text that spells bytes takes two bytes of text for each of them. -/
theorem utf8Len_of_bytes? {chars : List Char} {bytes : Bytes}
    (spelled : bytes? chars = some bytes) :
    String.utf8Len chars = 2 * bytes.length := by
  fun_induction bytes? chars generalizing bytes with
  | case1 =>
      cases spelled
      rfl
  | case2 => cases spelled
  | case3 high low rest ih =>
      obtain ⟨_, _, others, highEq, lowEq, restEq, rfl⟩ := bytes?_cons_cons_eq_some_iff.mp spelled
      rw [String.utf8Len_cons, String.utf8Len_cons, utf8Size_of_digit? highEq,
        utf8Size_of_digit? lowEq, ih restEq, List.length_cons]
      ring

theorem utf8ByteSize_of_bytes? {text : String} {bytes : Bytes}
    (spelled : bytes? text.toList = some bytes) : text.utf8ByteSize = 2 * bytes.length := by
  rw [← utf8Len_of_bytes? spelled, ← String.utf8ByteSize_ofList, String.ofList_toList]

/-- Bytes that are spelled are decoded, wherever their digits stand. -/
theorem decodePairs_of_bytes? {chars : List Char} {bytes : Bytes}
    (spelled : bytes? chars = some bytes) (position : Nat) :
    Hex.decodePairs position chars = .ok bytes := by
  fun_induction bytes? chars generalizing bytes position with
  | case1 =>
      cases spelled
      rfl
  | case2 => cases spelled
  | case3 high low rest ih =>
      obtain ⟨_, _, others, highEq, lowEq, restEq, rfl⟩ := bytes?_cons_cons_eq_some_iff.mp spelled
      obtain ⟨highDigit, highKnown, rfl⟩ := digitValue?_of_digit? highEq
      obtain ⟨lowDigit, lowKnown, rfl⟩ := digitValue?_of_digit? lowEq
      have byte : highDigit * 16 + lowDigit =
          UInt8.ofNat (16 * highDigit.toNat + lowDigit.toNat) := by
        rw [Nat.mul_comm, UInt8.ofNat_add, UInt8.ofNat_mul, UInt8.ofNat_toNat, UInt8.ofNat_toNat]
        rfl
      simp only [Hex.decodePairs, highKnown, lowKnown, ih restEq, byte]

/-- A text is decoded to the bytes that it spells. -/
theorem decode_of_bytes? {text : String} {bytes : Bytes}
    (spelled : bytes? text.toList = some bytes) : Hex.decode text = .ok bytes := by
  have even : ¬text.utf8ByteSize % 2 = 1 := by
    rw [utf8ByteSize_of_bytes? spelled]
    omega
  rw [Hex.decode, if_neg even, decodePairs_of_bytes? spelled]

/-! ## Numbers -/

theorem numberAfter?_cons_eq_some_iff {before value : Nat} {char : Char} {rest : List Char} :
    numberAfter? before (char :: rest) = some value ↔
      ∃ digit, digit? char = some digit ∧
        numberAfter? (16 * before + digit) rest = some value := by
  simp only [numberAfter?, Option.bind_eq_bind, Option.bind_eq_some_iff]

theorem numberAfter?_map_toLower (before : Nat) (chars : List Char) :
    numberAfter? before (chars.map Char.toLower) = numberAfter? before chars := by
  induction chars generalizing before with
  | nil => rfl
  | cons char rest ih => simp only [List.map_cons, numberAfter?, digit?_toLower, ih]

theorem numberAfter?_append {before middle : Nat} {front back : List Char}
    (read : numberAfter? before front = some middle) :
    numberAfter? before (front ++ back) = numberAfter? middle back := by
  induction front generalizing before with
  | nil =>
      cases read
      rfl
  | cons char rest ih =>
      obtain ⟨digit, known, restRead⟩ := numberAfter?_cons_eq_some_iff.mp read
      rw [List.cons_append, numberAfter?, known]
      exact ih restRead

/-- The lowest digits of a number spell what they are worth together. -/
theorem numberAfter?_lowDigits (before width value : Nat) :
    numberAfter? before (lowDigits width value) =
      some (before * 16 ^ width + value % 16 ^ width) := by
  induction width generalizing value with
  | zero => simp [lowDigits, numberAfter?, Nat.mod_one]
  | succ width ih =>
      rw [lowDigits, numberAfter?_append (ih (value / 16)), numberAfter?,
        digit?_digitChar (Nat.mod_lt value (by decide))]
      simp only [Option.bind_eq_bind, Option.bind_some, numberAfter?, Option.some.injEq, pow_succ',
        Nat.mod_mul]
      ring

theorem le_of_numberAfter? {before value : Nat} {chars : List Char}
    (read : numberAfter? before chars = some value) : before ≤ value := by
  induction chars generalizing before with
  | nil =>
      cases read
      exact Nat.le_refl _
  | cons char rest ih =>
      obtain ⟨digit, -, restRead⟩ := numberAfter?_cons_eq_some_iff.mp read
      have later := ih restRead
      omega

/-- A number that is spelled is read, if it keeps to the limit. -/
theorem accumulate_of_numberAfter? {limit before value : Nat} {chars : List Char}
    (read : numberAfter? before chars = some value) (within : value ≤ limit) :
    Digits.accumulate 16 limit Digits.hexValue? before chars = .ok value := by
  induction chars generalizing before with
  | nil =>
      cases read
      rfl
  | cons char rest ih =>
      obtain ⟨digit, known, restRead⟩ := numberAfter?_cons_eq_some_iff.mp read
      have small := le_of_numberAfter? restRead
      rw [Nat.mul_comm] at small restRead
      simp only [Digits.accumulate, Digits.hexValue?, ← digit?_eq, known]
      rw [if_pos (by omega)]
      exact ih restRead

/-- A text that spells a number without a sign before it is read as that number. -/
theorem parseHex_of_numberAfter? {limit value : Nat} {chars : List Char} (filled : chars ≠ [])
    (read : numberAfter? 0 chars = some value) (within : value ≤ limit) :
    Digits.parseHex limit chars = .ok value := by
  have sign (rest : List Char) : chars ≠ '+' :: rest := by
    rintro rfl
    obtain ⟨digit, known, -⟩ := numberAfter?_cons_eq_some_iff.mp read
    have unknown : digit? '+' = none := by decide
    exact absurd (unknown.symm.trans known) (by simp)
  unfold Digits.parseHex Digits.parse
  split
  · exact absurd rfl filled
  · exact absurd rfl (sign [])
  · exact absurd rfl (sign _)
  · exact accumulate_of_numberAfter? read within

end StratumMiner.HexReading

namespace StratumMiner.Hex

/-! ## What has been written -/

/-- The same text but for the case of its letters. -/
def SameDigits (left right : String) : Prop :=
  left.toList.map Char.toLower = right.toList.map Char.toLower

instance (left right : String) : Decidable (SameDigits left right) :=
  inferInstanceAs (Decidable (left.toList.map Char.toLower = right.toList.map Char.toLower))

theorem SameDigits.bytes? {left right : String} (same : SameDigits left right) :
    HexReading.bytes? left.toList = HexReading.bytes? right.toList := by
  rw [← HexReading.bytes?_map_toLower, same, HexReading.bytes?_map_toLower]

theorem SameDigits.numberAfter? {left right : String} (same : SameDigits left right)
    (before : Nat) :
    HexReading.numberAfter? before left.toList = HexReading.numberAfter? before right.toList := by
  rw [← HexReading.numberAfter?_map_toLower, same, HexReading.numberAfter?_map_toLower]

/-- Encoded bytes are decoded again, whatever the case of their digits. -/
theorem SameDigits.decode {text : String} {bytes : Bytes}
    (same : SameDigits text (encode bytes)) : Hex.decode text = .ok bytes := by
  refine HexReading.decode_of_bytes? ?_
  rw [same.bytes?, encode, String.toList_ofList]
  exact HexReading.bytes?_encodeChars bytes

/-- A word written with eight digits is read again, whatever their case. -/
theorem SameDigits.parseHex {text : String} {word : UInt32}
    (same : SameDigits text (padded 8 word.toNat)) :
    text.utf8ByteSize = 8 ∧
      Digits.parseHex (UInt32.size - 1) text.toList = .ok word.toNat := by
  have small : word.toNat < 16 ^ 8 := word.toNat_lt
  have size : text.utf8ByteSize = 8 := by
    rw [HexReading.utf8ByteSize_of_bytes? (same.bytes?.trans (HexReading.bytes?_padded_word word)),
      Bytes.length_ofNatBE]
  have filled : text.toList ≠ [] := by
    intro empty
    rw [String.toList_eq_nil_iff.mp empty] at size
    exact absurd size (by decide)
  have spelled : HexReading.numberAfter? 0 text.toList = some word.toNat := by
    rw [same.numberAfter?, HexReading.toList_padded (by decide) small,
      HexReading.numberAfter?_lowDigits, Nat.zero_mul, Nat.zero_add, Nat.mod_eq_of_lt small]
  exact ⟨size, HexReading.parseHex_of_numberAfter? filled spelled (Nat.le_pred_of_lt small)⟩

end StratumMiner.Hex
