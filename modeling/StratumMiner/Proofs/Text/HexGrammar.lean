import Mathlib
import StratumMiner.Proofs.Text.HexDecoding

/-!
# Which texts are hexadecimal

The readers report no more than a fault, so this module says which texts they take.  Bytes are read
from an even number of digits and from nothing else, and a word from eight digits; only a plus sign
may stand in the place of the first digit of a word, as if it were a zero.  In lower case, what is
read is the text that would be written.
-/

namespace StratumMiner

namespace Hex

/-- The digits are `0` to `9` and, in either case, the letters `a` to `f`. -/
def IsDigit (char : Char) : Prop :=
  ('0' ≤ char ∧ char ≤ '9') ∨ ('a' ≤ char ∧ char ≤ 'f') ∨ ('A' ≤ char ∧ char ≤ 'F')

instance (char : Char) : Decidable (IsDigit char) :=
  inferInstanceAs (Decidable (_ ∨ _ ∨ _))

/-- The text has nothing but digits, and so many of them. -/
structure HasDigits (count : Nat) (text : String) : Prop where
  length : text.length = count
  digits : ∀ char ∈ text.toList, IsDigit char

end Hex

namespace HexReading

/-- The digits are the characters that are worth something. -/
theorem isDigit_iff {char : Char} : Hex.IsDigit char ↔ ∃ value, digit? char = some value := by
  have known : (∃ value, digit? char = some value) ↔ (Hex.digitValue? char).isSome = true := by
    rw [digit?_eq, Option.isSome_iff_exists]
    simp
  rw [known]
  simp only [Hex.IsDigit, Hex.digitValue?, Char.le_def, UInt32.le_iff_toNat_le, Char.toNat_val,
    Char.reduceToNat]
  split_ifs with decimal lower upper
  · exact iff_of_true (.inl decimal) rfl
  · exact iff_of_true (.inr (.inl lower)) rfl
  · exact iff_of_true (.inr (.inr upper)) rfl
  · exact iff_of_false (not_or.mpr ⟨decimal, not_or.mpr ⟨lower, upper⟩⟩) (by simp)

theorem digit_ofNat : ∀ value : Fin 16, Hex.digit (UInt8.ofNat value) = digits[value] := by
  decide

/-- In lower case, a digit is the one that is written for its value. -/
theorem toLower_of_digit? {char : Char} {value : Nat} (known : digit? char = some value) :
    value < 16 ∧ char.toLower = Hex.digit (UInt8.ofNat value) := by
  rw [digit?, List.idxOf?_eq_some_iff] at known
  rcases known with ⟨small, same, -⟩
  constructor
  · exact small
  · rw [← same]
    exact (digit_ofNat ⟨value, small⟩).symm

/-! ## Bytes -/

theorem length_of_bytes? {chars : List Char} {bytes : Bytes}
    (spelled : bytes? chars = some bytes) : chars.length = 2 * bytes.length := by
  fun_induction bytes? chars generalizing bytes with
  | case1 =>
      cases spelled
      rfl
  | case2 => cases spelled
  | case3 high low rest ih =>
      rcases bytes?_cons_cons_eq_some_iff.mp spelled with ⟨_, _, others, -, -, restEq, rfl⟩
      rw [List.length_cons, List.length_cons, ih restEq, List.length_cons]
      ring

/-- Digits spell bytes if their number is even. -/
theorem exists_bytes?_iff {chars : List Char} :
    (∃ bytes, bytes? chars = some bytes) ↔ Even chars.length ∧ ∀ char ∈ chars, Hex.IsDigit char := by
  fun_induction bytes? chars with
  | case1 => exact iff_of_true ⟨[], rfl⟩ ⟨Even.zero, List.forall_mem_nil _⟩
  | case2 char => exact iff_of_false (by simp) (fun even => absurd even.1 (by simp))
  | case3 high low rest ih =>
      have spelled : (∃ bytes, bytes? (high :: low :: rest) = some bytes) ↔
          Hex.IsDigit high ∧ Hex.IsDigit low ∧ ∃ bytes, bytes? rest = some bytes := by
        rw [isDigit_iff, isDigit_iff]
        constructor
        · intro spelled
          rcases spelled with ⟨bytes, spelled⟩
          rcases bytes?_cons_cons_eq_some_iff.mp spelled with
            ⟨highValue, lowValue, others, highEq, lowEq, restEq, -⟩
          exact ⟨⟨highValue, highEq⟩, ⟨lowValue, lowEq⟩, ⟨others, restEq⟩⟩
        · intro parts
          rcases parts with ⟨⟨highValue, highEq⟩, ⟨lowValue, lowEq⟩, ⟨others, restEq⟩⟩
          exact ⟨_, bytes?_cons_cons highEq lowEq restEq⟩
      have even : Even (high :: low :: rest).length ↔ Even rest.length := by
        rw [List.length_cons, List.length_cons, Nat.even_add_one, Nat.even_add_one, not_not]
      change (∃ bytes, bytes? (high :: low :: rest) = some bytes) ↔ _
      rw [spelled, even, ih, List.forall_mem_cons, List.forall_mem_cons]
      tauto

/-- In lower case, digits that spell bytes are those that are written for them. -/
theorem map_toLower_of_bytes? {chars : List Char} {bytes : Bytes}
    (spelled : bytes? chars = some bytes) : chars.map Char.toLower = Hex.encodeChars bytes := by
  fun_induction bytes? chars generalizing bytes with
  | case1 =>
      cases spelled
      rfl
  | case2 => cases spelled
  | case3 high low rest ih =>
      rcases bytes?_cons_cons_eq_some_iff.mp spelled with
        ⟨highValue, lowValue, others, highEq, lowEq, restEq, rfl⟩
      rcases toLower_of_digit? highEq with ⟨highSmall, highLower⟩
      rcases toLower_of_digit? lowEq with ⟨lowSmall, lowLower⟩
      have byte : (UInt8.ofNat (16 * highValue + lowValue)).toNat = 16 * highValue + lowValue :=
        UInt8.toNat_ofNat_of_lt' (by simp only [UInt8.size]; omega)
      have upper : UInt8.ofNat (16 * highValue + lowValue) >>> 4 = UInt8.ofNat highValue := by
        apply UInt8.toNat_inj.mp
        rw [UInt8.toNat_shiftRight, byte, Nat.shiftRight_eq_div_pow, UInt8.toNat_ofNat']
        change (16 * highValue + lowValue) / 16 = highValue % 256
        omega
      have lower : UInt8.ofNat (16 * highValue + lowValue) &&& 15 = UInt8.ofNat lowValue := by
        apply UInt8.toNat_inj.mp
        rw [UInt8.toNat_and, byte, UInt8.toNat_ofNat']
        refine (Nat.and_two_pow_sub_one_eq_mod _ 4).trans ?_
        omega
      rw [List.map_cons, List.map_cons, ih restEq, highLower, lowLower, Hex.encodeChars, upper,
        lower]

/-! ## Numbers -/

/-- A number without a sign is spelled by digits. -/
theorem isDigit_of_numberAfter? {chars : List Char} {before value : Nat}
    (read : numberAfter? before chars = some value) : ∀ char ∈ chars, Hex.IsDigit char := by
  induction chars generalizing before with
  | nil => exact List.forall_mem_nil _
  | cons first rest ih =>
      rcases numberAfter?_cons_eq_some_iff.mp read with ⟨digit, known, restRead⟩
      rw [List.forall_mem_cons]
      exact ⟨isDigit_iff.mpr ⟨digit, known⟩, ih restRead⟩

theorem utf8Len_of_isDigit {chars : List Char} (digits : ∀ char ∈ chars, Hex.IsDigit char) :
    String.utf8Len chars = chars.length := by
  induction chars with
  | nil => rfl
  | cons first rest ih =>
      rw [List.forall_mem_cons] at digits
      rcases isDigit_iff.mp digits.1 with ⟨value, known⟩
      rw [String.utf8Len_cons, utf8Size_of_digit? known, ih digits.2, List.length_cons]

/-- Before a digit, a plus sign counts for as much as a zero. -/
theorem parseHex_plus {limit : Nat} {rest : List Char} (filled : rest ≠ []) :
    Digits.parseHex limit ('+' :: rest) = Digits.parseHex limit ('0' :: rest) := by
  cases rest with
  | nil => exact absurd rfl filled
  | cons char rest =>
      have zero : Digits.hexValue? '0' = some 0 := by decide
      have leading : Digits.accumulate 16 limit Digits.hexValue? 0 ('0' :: char :: rest) =
          Digits.accumulate 16 limit Digits.hexValue? 0 (char :: rest) := by
        rw [Digits.accumulate, zero]
        exact if_pos (Nat.zero_le limit)
      exact leading.symm

end HexReading

namespace Hex

/-! ## What is written -/

/-- Bytes are spelled by the text that is written for them, in whatever case. -/
theorem sameDigits_encode_iff {text : String} {bytes : Bytes} :
    SameDigits text (encode bytes) ↔ HexReading.bytes? text.toList = some bytes := by
  constructor
  · intro same
    rw [same.bytes?, encode, String.toList_ofList]
    exact HexReading.bytes?_encodeChars bytes
  · intro spelled
    have own := HexReading.map_toLower_of_bytes? (HexReading.bytes?_encodeChars bytes)
    rw [SameDigits, encode, String.toList_ofList, own, HexReading.map_toLower_of_bytes? spelled]

/-- Eight digits are written for a word as for its four bytes. -/
theorem sameDigits_padded_iff {text : String} {word : UInt32} :
    SameDigits text (padded 8 word.toNat) ↔
      SameDigits text (encode (Bytes.ofNatBE 4 word.toNat)) := by
  have own : SameDigits (padded 8 word.toNat) (encode (Bytes.ofNatBE 4 word.toNat)) :=
    sameDigits_encode_iff.mpr (HexReading.bytes?_padded_word word)
  rw [SameDigits, SameDigits, own]

/-- A text is decoded just when it is the text of some bytes, in whatever case. -/
theorem decode_eq_ok_iff {text : String} {bytes : Bytes} :
    decode text = .ok bytes ↔ SameDigits text (encode bytes) := by
  constructor
  · intro decoded
    exact sameDigits_encode_iff.mpr (HexReading.bytes?_of_decode decoded)
  · exact SameDigits.decode

/-- The texts of bytes are an even number of digits. -/
theorem exists_sameDigits_encode_iff {text : String} :
    (∃ bytes, SameDigits text (encode bytes)) ↔
      Even text.length ∧ ∀ char ∈ text.toList, IsDigit char := by
  simp only [sameDigits_encode_iff, HexReading.exists_bytes?_iff, String.length_toList]

/-- The texts of so many bytes are twice as many digits. -/
theorem exists_sameDigits_encode_length_iff {text : String} {count : Nat} :
    (∃ bytes : Bytes, bytes.length = count ∧ SameDigits text (encode bytes)) ↔
      HasDigits (2 * count) text := by
  constructor
  · intro written
    rcases written with ⟨bytes, rfl, same⟩
    constructor
    · rw [← String.length_toList]
      exact HexReading.length_of_bytes? (sameDigits_encode_iff.mp same)
    · exact (exists_sameDigits_encode_iff.mp ⟨bytes, same⟩).2
  · intro digits
    have even : Even text.length := by
      rw [digits.length]
      exact even_two_mul count
    rcases exists_sameDigits_encode_iff.mpr ⟨even, digits.digits⟩ with ⟨bytes, same⟩
    have length := HexReading.length_of_bytes? (sameDigits_encode_iff.mp same)
    rw [String.length_toList, digits.length] at length
    exact ⟨bytes, by omega, same⟩

/-- The texts of words are eight digits. -/
theorem exists_sameDigits_padded_iff {text : String} :
    (∃ word : UInt32, SameDigits text (padded 8 word.toNat)) ↔ HasDigits 8 text := by
  rw [← @exists_sameDigits_encode_length_iff text 4]
  simp only [sameDigits_padded_iff]
  constructor
  · intro written
    rcases written with ⟨word, same⟩
    exact ⟨_, Bytes.length_ofNatBE 4 word.toNat, same⟩
  · intro written
    rcases written with ⟨bytes, length, same⟩
    have small := Bytes.toNatBE_lt bytes
    rw [length] at small
    refine ⟨UInt32.ofNat (Bytes.toNatBE bytes), ?_⟩
    rw [UInt32.toNat_ofNat_of_lt' small, ← length, Bytes.ofNatBE_toNatBE]
    exact same

/-! ## Words with a sign -/

/-- The text with a zero in the place of a plus sign before it. -/
def unsigned (text : String) : String :=
  match text.toList with
  | '+' :: rest => String.ofList ('0' :: rest)
  | _ => text

/-- No plus sign is left. -/
theorem head?_unsigned (text : String) : (unsigned text).toList.head? ≠ some '+' := by
  rw [unsigned]
  split
  · rw [String.toList_ofList]
    simp
  · next unsigned =>
      cases chars : text.toList with
      | nil => simp
      | cons first rest =>
          rw [List.head?_cons, Ne, Option.some.injEq]
          rintro rfl
          exact unsigned rest chars

theorem unsigned_of_head? {text : String} (unsigned : text.toList.head? ≠ some '+') :
    Hex.unsigned text = text := by
  rw [Hex.unsigned]
  split
  · next signed =>
      rw [signed] at unsigned
      exact absurd rfl unsigned
  · rfl

/-- A word is read from a text as from the same text with a zero for its plus sign. -/
theorem parseHex_unsigned_iff {text : String} {word : UInt32} :
    ((unsigned text).utf8ByteSize = 8 ∧
        Digits.parseHex (UInt32.size - 1) (unsigned text).toList = .ok word.toNat) ↔
      text.utf8ByteSize = 8 ∧
        Digits.parseHex (UInt32.size - 1) text.toList = .ok word.toNat := by
  rw [unsigned]
  split
  · next rest signed =>
      have size : (String.ofList ('0' :: rest)).utf8ByteSize = text.utf8ByteSize := by
        rw [← @String.ofList_toList text, signed, String.utf8ByteSize_ofList,
          String.utf8ByteSize_ofList, String.utf8Len_cons, String.utf8Len_cons]
        rfl
      rw [size, String.toList_ofList, signed]
      apply and_congr_right
      intro eight
      rw [HexReading.parseHex_plus]
      -- A plus sign on its own is one byte, not eight.
      rintro rfl
      rw [← size] at eight
      exact absurd eight (by decide)
  · rfl

/-- But for a plus sign, a word is read from the text that would be written for it. -/
theorem sameDigits_unsigned_iff {text : String} {word : UInt32} :
    SameDigits (unsigned text) (padded 8 word.toNat) ↔
      text.utf8ByteSize = 8 ∧
        Digits.parseHex (UInt32.size - 1) text.toList = .ok word.toNat := by
  rw [← parseHex_unsigned_iff]
  constructor
  · intro same
    exact same.parseHex
  · intro read
    have unsigned := head?_unsigned text
    generalize Hex.unsigned text = text at read unsigned
    rcases read with ⟨size, parsed⟩
    have number := HexReading.number?_of_parseHex parsed
    have digits : ∀ char ∈ text.toList, IsDigit char := by
      rw [HexReading.number?.eq_def] at number
      split at number
      · next signed =>
          rw [signed] at unsigned
          exact absurd rfl unsigned
      · exact HexReading.isDigit_of_numberAfter? number
    have eight : HasDigits 8 text := by
      constructor
      · rw [← String.length_toList, ← HexReading.utf8Len_of_isDigit digits, ← size,
          ← String.utf8ByteSize_ofList, String.ofList_toList]
      · exact digits
    rcases exists_sameDigits_padded_iff.mpr eight with ⟨other, same⟩
    have agree : word = other :=
      UInt32.toNat_inj.mp (Except.ok.inj (parsed.symm.trans same.parseHex.2))
    rw [agree]
    exact same

end Hex

end StratumMiner
