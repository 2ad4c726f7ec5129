import Mathlib
import StratumMiner.Proofs.Bytes
import StratumMiner.Text.Digits

/-!
# What hexadecimal text says

A digit is worth its place among the sixteen digits, whatever its case; two digits are a byte, and
any digits are a number.  These readings report no faults and know nothing of positions, so they
say plainly what the readers and writers of hexadecimal text should agree with.
-/

namespace StratumMiner.HexReading

/-- The sixteen digits in order. -/
def digits : List Char :=
  ['0', '1', '2', '3', '4', '5', '6', '7', '8', '9', 'a', 'b', 'c', 'd', 'e', 'f']

/-- What a digit is worth. -/
def digit? (char : Char) : Option Nat :=
  digits.idxOf? char.toLower

/-- The bytes that pairs of digits spell. -/
def bytes? : List Char → Option Bytes
  | [] => some []
  | [_] => none
  | high :: low :: rest => do
      let byte := UInt8.ofNat (16 * (← digit? high) + (← digit? low))
      some (byte :: (← bytes? rest))

/-- The number that digits spell, most significant first, behind what has been read before. -/
def numberAfter? (before : Nat) : List Char → Option Nat
  | [] => some before
  | char :: rest => do numberAfter? (16 * before + (← digit? char)) rest

/-- The number that digits spell, most significant first; a plus sign may stand before them. -/
def number? : List Char → Option Nat
  | '+' :: rest => numberAfter? 0 rest
  | chars => numberAfter? 0 chars

/-! ## Digits -/

/-- Among the characters of ASCII, the digits are worth what the readers take them for. -/
theorem digit?_ascii : ∀ code : Fin 128,
    digit? (Char.ofNat code) = (Hex.digitValue? (Char.ofNat code)).map UInt8.toNat := by
  decide

theorem digitValue?_lt {char : Char} {value : UInt8}
    (known : Hex.digitValue? char = some value) : char.toNat < 128 ∧ value.toNat < 16 := by
  unfold Hex.digitValue? at known
  simp only at known
  split_ifs at known with decimal lower upper <;> cases Option.some.inj known <;>
    rw [UInt8.toNat_ofNat'] <;> omega

theorem digit?_of_digitValue? {char : Char} {value : UInt8}
    (known : Hex.digitValue? char = some value) : digit? char = some value.toNat := by
  have agree := digit?_ascii ⟨char.toNat, (digitValue?_lt known).1⟩
  rw [Char.ofNat_toNat, known] at agree
  exact agree

theorem digit?_digit {value : UInt8} (small : value.toNat < 16) :
    digit? (Hex.digit value) = some value.toNat := by
  have back : value = UInt8.ofNat value.toNat := UInt8.ofNat_toNat.symm
  generalize value.toNat = code at back small ⊢
  subst back
  interval_cases code <;> decide

theorem digit?_digitChar {value : Nat} (small : value < 16) :
    digit? (Nat.digitChar value) = some value := by
  interval_cases value <;> decide

/-! ## Bytes -/

theorem bytes?_cons_cons {high low : Char} {rest : List Char} {highValue lowValue : Nat}
    {bytes : Bytes} (highEq : digit? high = some highValue) (lowEq : digit? low = some lowValue)
    (restEq : bytes? rest = some bytes) :
    bytes? (high :: low :: rest) = some (UInt8.ofNat (16 * highValue + lowValue) :: bytes) := by
  simp [bytes?, highEq, lowEq, restEq]

/-- Encoded bytes spell themselves. -/
theorem bytes?_encodeChars (bytes : Bytes) : bytes? (Hex.encodeChars bytes) = some bytes := by
  induction bytes with
  | nil => rfl
  | cons byte rest ih =>
      have small := byte.toNat_lt
      have high : (byte >>> 4).toNat = byte.toNat / 16 := by
        simp [Nat.shiftRight_eq_div_pow]
      have low : (byte &&& 15).toNat = byte.toNat % 16 := by
        rw [UInt8.toNat_and]
        exact Nat.and_two_pow_sub_one_eq_mod byte.toNat 4
      rw [Hex.encodeChars, bytes?_cons_cons (digit?_digit (by omega)) (digit?_digit (by omega)) ih,
        high, low, Nat.div_add_mod, UInt8.ofNat_toNat]

/-- Different bytes are written differently. -/
theorem encode_injective : Function.Injective Hex.encode := by
  intro left right same
  have spelled : bytes? (Hex.encodeChars left) = bytes? (Hex.encodeChars right) :=
    congrArg bytes? (String.ofList_injective same)
  rw [bytes?_encodeChars, bytes?_encodeChars] at spelled
  exact Option.some.inj spelled

/-- Bytes that have been decoded are those that the text spells. -/
theorem bytes?_of_decodePairs {position : Nat} {chars : List Char} {bytes : Bytes}
    (decoded : Hex.decodePairs position chars = .ok bytes) : bytes? chars = some bytes := by
  fun_induction Hex.decodePairs position chars generalizing bytes with
  | case1 => cases decoded; rfl
  | case2 => cases decoded
  | case3 => cases decoded
  | case4 position high low rest highValue lowValue lowEq highEq more restEq ih =>
      cases decoded
      have highSmall := (digitValue?_lt highEq).2
      have lowSmall := (digitValue?_lt lowEq).2
      have byte :
          UInt8.ofNat (16 * highValue.toNat + lowValue.toNat) = highValue * 16 + lowValue := by
        apply UInt8.toNat_inj.mp
        rw [UInt8.toNat_ofNat', UInt8.toNat_add, UInt8.toNat_mul]
        simp only [UInt8.reduceToNat]
        omega
      rw [bytes?_cons_cons (digit?_of_digitValue? highEq) (digit?_of_digitValue? lowEq) (ih restEq),
        byte]
  | case5 => cases decoded
  | case6 => cases decoded
  | case7 => cases decoded

theorem bytes?_of_decode {text : String} {bytes : Bytes} (decoded : Hex.decode text = .ok bytes) :
    bytes? text.toList = some bytes := by
  unfold Hex.decode at decoded
  split at decoded
  · cases decoded
  · exact bytes?_of_decodePairs decoded

/-! ## Numbers -/

/-- A number that has been read is the one that the digits spell. -/
theorem numberAfter?_of_accumulate {limit before value : Nat} {chars : List Char}
    (read : Digits.accumulate 16 limit Digits.hexValue? before chars = .ok value) :
    numberAfter? before chars = some value := by
  induction chars generalizing before with
  | nil =>
      cases read
      rfl
  | cons char rest ih =>
      simp only [Digits.accumulate, Digits.hexValue?] at read
      cases known : Hex.digitValue? char with
      | none => simp [known] at read
      | some digit =>
          simp only [known, Option.map_some] at read
          split at read
          · simp only [numberAfter?, digit?_of_digitValue? known, Option.bind_eq_bind,
              Option.bind_some]
            rw [Nat.mul_comm]
            exact ih read
          · cases read

theorem number?_of_parseHex {limit value : Nat} {chars : List Char}
    (read : Digits.parseHex limit chars = .ok value) : number? chars = some value := by
  unfold Digits.parseHex Digits.parse at read
  split at read
  · cases read
  · cases read
  · exact numberAfter?_of_accumulate read
  · next notSign =>
      unfold number?
      split
      · exact absurd rfl (notSign _)
      · exact numberAfter?_of_accumulate read

theorem le_of_accumulate {base limit before value : Nat} {value? : Char → Option Nat}
    {chars : List Char} (within : before ≤ limit)
    (read : Digits.accumulate base limit value? before chars = .ok value) : value ≤ limit := by
  induction chars generalizing before with
  | nil =>
      cases read
      exact within
  | cons char rest ih =>
      simp only [Digits.accumulate] at read
      split at read
      · cases read
      · split at read
        · next small => exact ih small read
        · cases read

/-- A number that has been read keeps to its limit. -/
theorem le_of_parseHex {limit value : Nat} {chars : List Char}
    (read : Digits.parseHex limit chars = .ok value) : value ≤ limit := by
  unfold Digits.parseHex Digits.parse at read
  split at read
  · cases read
  · cases read
  · exact le_of_accumulate (Nat.zero_le limit) read
  · exact le_of_accumulate (Nat.zero_le limit) read

/-! ## Words -/

/-- The `width` lowest digits of a number, most significant first. -/
def lowDigits : (width value : Nat) → List Char
  | 0, _ => []
  | width + 1, value => lowDigits width (value / 16) ++ [Nat.digitChar (value % 16)]

/-- A number that fits is padded to its lowest digits. -/
theorem toList_padded {width value : Nat} (wide : 0 < width) (fits : value < 16 ^ width) :
    (Hex.padded width value).toList = lowDigits width value := by
  induction width generalizing value with
  | zero => exact absurd wide (Nat.lt_irrefl 0)
  | succ width ih =>
      rcases Nat.eq_zero_or_pos width with rfl | more
      · have small : value < 16 := by simpa using fits
        simp [Hex.padded, lowDigits, Nat.toDigits_of_lt_base small, Nat.mod_eq_of_lt small]
      · have quotient : value / 16 < 16 ^ width := by
          rw [pow_succ] at fits
          exact Nat.div_lt_of_lt_mul (by omega)
        rw [lowDigits, ← ih more quotient]
        simp only [Hex.padded, String.toList_ofList]
        rcases Nat.lt_or_ge value 16 with small | large
        · have zeros : List.replicate width '0' = List.replicate (width - 1) '0' ++ ['0'] := by
            rw [← List.replicate_succ', Nat.sub_add_cancel more]
          rw [Nat.toDigits_of_lt_base small, Nat.div_eq_of_lt small, Nat.mod_eq_of_lt small,
            Nat.toDigits_zero]
          simp [zeros]
        · rw [Nat.toDigits_of_base_le (by decide) large]
          simp

theorem bytes?_append {front back : List Char} {frontBytes backBytes : Bytes}
    (frontEq : bytes? front = some frontBytes) (backEq : bytes? back = some backBytes) :
    bytes? (front ++ back) = some (frontBytes ++ backBytes) := by
  fun_induction bytes? front generalizing frontBytes with
  | case1 =>
      cases frontEq
      exact backEq
  | case2 => cases frontEq
  | case3 high low rest ih =>
      simp only [Option.bind_eq_bind, Option.bind_eq_some_iff] at frontEq
      obtain ⟨highValue, highEq, lowValue, lowEq, bytes, restEq, same⟩ := frontEq
      cases same
      exact bytes?_cons_cons highEq lowEq (ih restEq)

/-- Two digits for each byte spell the encoding of the number, most significant byte first. -/
theorem bytes?_lowDigits (width value : Nat) :
    bytes? (lowDigits (2 * width) value) = some (Bytes.ofNatBE width value) := by
  induction width generalizing value with
  | zero => rfl
  | succ width ih =>
      have pair : bytes? [Nat.digitChar (value / 16 % 16), Nat.digitChar (value % 16)] =
          some [UInt8.ofNat (value % 256)] := by
        have byte : 16 * (value / 16 % 16) + value % 16 = value % 256 := by omega
        rw [bytes?_cons_cons (digit?_digitChar (by omega)) (digit?_digitChar (by omega)) rfl, byte]
      have whole := bytes?_append (ih (value / 256)) pair
      rw [show 2 * (width + 1) = 2 * width + 1 + 1 by ring, lowDigits, lowDigits,
        List.append_assoc, Nat.div_div_eq_div_mul]
      exact whole.trans (by simp [Bytes.ofNatBE, Bytes.ofNatLE])

/-- Eight padded digits spell the bytes of a word, most significant first. -/
theorem bytes?_padded_word (word : UInt32) :
    bytes? (Hex.padded 8 word.toNat).toList = some (Bytes.ofNatBE 4 word.toNat) := by
  rw [toList_padded (by decide) word.toNat_lt]
  exact bytes?_lowDigits 4 word.toNat

end StratumMiner.HexReading
