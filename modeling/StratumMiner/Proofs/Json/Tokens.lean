import Mathlib
import StratumMiner.Json.Reader
import StratumMiner.Json.Writer

/-!
# Strings and numbers that have been written

What the writer makes of a character of a string, the reader takes for that character, and a string
ends at its closing mark.  The digits of an integer are read as the integer if no digit, point or
exponent follows them; behind a value there is nothing, a comma or a closing bracket.  The writer
leaves no control character in its text.
-/

namespace StratumMiner.Json

variable {char : Char} {done rest : List Char}

/-- What may stand behind a value in a text without blanks. -/
def Ends (rest : List Char) : Prop :=
  ∀ char ∈ rest.head?, char = ',' ∨ char = ']' ∨ char = '\x7d'

theorem skipSpace_of_visible (visible : isSpace char = false) (rest : List Char) :
    skipSpace (char :: rest) = char :: rest := by
  simp [skipSpace, visible]

/-! ## Strings -/

theorem codeUnit?_digitChar {unit : Nat} (small : unit < 16) :
    codeUnit? '0' '0' '0' (Nat.digitChar unit) = some unit ∧
      codeUnit? '0' '0' '1' (Nat.digitChar unit) = some (unit + 16) := by
  interval_cases unit <;> exact ⟨rfl, rfl⟩

/-- A control character is the character of its code unit. -/
theorem readString_codeUnit {first second third fourth : Char}
    (spelled : codeUnit? first second third fourth = some char.toNat) (control : char.toNat < 32) :
    readString .kept none done ('\\' :: 'u' :: first :: second :: third :: fourth :: rest) =
      readString .kept none (char :: done) rest := by
  have notHigh : isHighUnit char.toNat = false := by
    simp only [isHighUnit, Bool.and_eq_false_iff, decide_eq_false_iff_not]
    omega
  have notLow : isLowUnit char.toNat = false := by
    simp only [isLowUnit, Bool.and_eq_false_iff, decide_eq_false_iff_not]
    omega
  rw [readString, spelled]
  simp [notHigh, notLow]

/-- What is written for a character is read as that character. -/
theorem readString_escapeChar (char : Char) (done rest : List Char) :
    readString .kept none done (escapeChar char ++ rest) =
      readString .kept none (char :: done) rest := by
  unfold escapeChar
  split_ifs with mark slash back tab line feed carriage low control
  · subst mark; simp [readString, shortEscape?]
  · subst slash; simp [readString, shortEscape?]
  · subst back; simp [readString, shortEscape?]
  · subst tab; simp [readString, shortEscape?]
  · subst line; simp [readString, shortEscape?]
  · subst feed; simp [readString, shortEscape?]
  · subst carriage; simp [readString, shortEscape?]
  · exact readString_codeUnit (codeUnit?_digitChar low).1 (by omega)
  · have joined : char.toNat - 16 + 16 = char.toNat := by omega
    have spelled := (codeUnit?_digitChar (by omega : char.toNat - 16 < 16)).2
    rw [joined] at spelled
    exact readString_codeUnit spelled control
  · rw [List.singleton_append, readString]
    · simp [slash, control]
    · exact mark
    · simp [slash]
    · simp [slash]

/-- A string that has been written is read up to its closing mark. -/
theorem readString_flatMap (chars rest : List Char) :
    readString .kept none done (chars.flatMap escapeChar ++ '"' :: rest) =
      some (done.reverse ++ chars, rest) := by
  induction chars generalizing done with
  | nil => simp [readString]
  | cons char chars ih =>
      rw [List.flatMap_cons, List.append_assoc, readString_escapeChar, ih]
      simp

theorem visible_digitChar {digit : Nat} (small : digit < 16) :
    32 ≤ (Nat.digitChar digit).toNat := by
  interval_cases digit <;> decide

/-- No control character is written as it is. -/
theorem visible_escapeChar (char : Char) : ∀ written ∈ escapeChar char, 32 ≤ written.toNat := by
  unfold escapeChar
  split_ifs with mark slash back tab line feed carriage low control
  iterate 7 · simp
  · simpa using visible_digitChar low
  · simpa using visible_digitChar (by omega : char.toNat - 16 < 16)
  · simpa using control

/-- No control character is in a string that has been written. -/
theorem visible_stringChars (value : String) :
    ∀ written ∈ stringChars value, 32 ≤ written.toNat := by
  intro written inside
  simp only [stringChars, List.cons_append, List.mem_cons, List.mem_append, List.mem_flatMap,
    List.not_mem_nil, or_false] at inside
  rcases inside with rfl | ⟨char, -, escaped⟩ | rfl
  · decide
  · exact visible_escapeChar char written escaped
  · decide

/-! ## Numbers -/

/-- The value of a decimal digit. -/
def digitOf (char : Char) : Nat :=
  char.toNat - 48

theorem takeDigits_append {digits : List Char} (decimal : ∀ char ∈ digits, char.isDigit = true)
    (ends : Ends rest) : takeDigits (digits ++ rest) = (digits.map digitOf, rest) := by
  induction digits with
  | nil =>
      cases rest with
      | nil => rfl
      | cons char rest =>
          have noDigit : char.isDigit = false := by
            rcases ends char rfl with rfl | rfl | rfl <;> rfl
          simp [takeDigits, Digits.decimalValue?, noDigit]
  | cons char digits ih =>
      have first := decimal char List.mem_cons_self
      have others := ih fun char inside => decimal char (List.mem_cons_of_mem _ inside)
      simp [takeDigits, Digits.decimalValue?, first, others, digitOf]

theorem le_foldl_digits (value : Nat) (digits : List Nat) :
    value ≤ digits.foldl (fun value digit => value * 10 + digit) value := by
  induction digits generalizing value with
  | nil => exact le_refl value
  | cons digit digits ih =>
      have step : value ≤ value * 10 + digit := by omega
      exact step.trans (ih _)

/-- All digits of a number that fits 64 bits are kept. -/
theorem appendDigits_eq_foldl {value : Nat} {digits : List Nat}
    (fits : digits.foldl (fun value digit => value * 10 + digit) value < UInt64.size) :
    appendDigits value digits =
      (digits.foldl (fun value digit => value * 10 + digit) value, []) := by
  induction digits generalizing value with
  | nil => rfl
  | cons digit digits ih =>
      have small : value * 10 + digit < UInt64.size :=
        lt_of_le_of_lt (le_foldl_digits _ digits) fits
      rw [appendDigits, if_pos small, ih fits]
      rfl

/-- The digits of a number are worth that number. -/
theorem foldl_toDigits (value : Nat) :
    ((Nat.toDigits 10 value).map digitOf).foldl (fun value digit => value * 10 + digit) 0 =
      value := by
  have back := @Nat.ofDigitChars_ten_toDigits value
  rw [Nat.ofDigitChars] at back
  rw [List.foldl_map]
  simp only [mul_comm] at back
  exact back

/-- The first digit of a number that is not zero is not zero. -/
theorem toDigits_first {value : Nat} (positive : 0 < value) :
    ∃ first others, Nat.toDigits 10 value = first :: others ∧ digitOf first ≠ 0 := by
  induction value using Nat.strong_induction_on with
  | _ value ih =>
      by_cases single : value < 10
      · refine ⟨Nat.digitChar value, [], Nat.toDigits_of_lt_base single, ?_⟩
        interval_cases value <;> decide
      · obtain ⟨first, others, digits, nonzero⟩ := ih (value / 10) (by omega) (by omega)
        refine ⟨first, others ++ [Nat.digitChar (value % 10)], ?_, nonzero⟩
        rw [Nat.toDigits_of_base_le (by decide) (not_lt.mp single), digits]
        rfl

/-- A number has digits, and a zero at their front stands alone. -/
theorem toDigits_alone (value : Nat) :
    ∃ first others, (Nat.toDigits 10 value).map digitOf = first :: others ∧
      ∀ second more, first :: others ≠ 0 :: second :: more := by
  rcases Nat.eq_zero_or_pos value with rfl | positive
  · exact ⟨0, [], rfl, by simp⟩
  · obtain ⟨first, others, digits, nonzero⟩ := toDigits_first positive
    refine ⟨digitOf first, others.map digitOf, congrArg (List.map digitOf) digits, ?_⟩
    rintro second more same
    exact nonzero (List.cons.inj same).1

theorem takeDigits_toDigits (value : Nat) (ends : Ends rest) :
    takeDigits (Nat.toDigits 10 value ++ rest) = ((Nat.toDigits 10 value).map digitOf, rest) :=
  takeDigits_append (fun _ inside => Nat.isDigit_of_mem_toDigits (by decide) (by decide) inside)
    ends

/-- No digits begin with a sign. -/
theorem toDigits_append_ne {value : Nat} (behind : List Char) (noDigit : char.isDigit = false) :
    Nat.toDigits 10 value ++ rest ≠ char :: behind := by
  intro same
  obtain ⟨first, others, digits⟩ := List.exists_cons_of_ne_nil (@Nat.toDigits_ne_nil value 10)
  have decimal : first.isDigit = true :=
    Nat.isDigit_of_mem_toDigits (by decide) (by decide) (digits ▸ List.mem_cons_self)
  rw [digits] at same
  obtain rfl := (List.cons.inj same).1
  exact Bool.false_ne_true (noDigit.symm.trans decimal)

theorem takeFraction_of_ends (ends : Ends rest) : takeFraction rest = some (none, rest) := by
  cases rest with
  | nil => rfl
  | cons char rest => rcases ends char rfl with rfl | rfl | rfl <;> rfl

theorem takeExponent_of_ends (ends : Ends rest) : takeExponent rest = some (none, rest) := by
  cases rest with
  | nil => rfl
  | cons char rest => rcases ends char rfl with rfl | rfl | rfl <;> rfl

theorem takeLiteral_toDigits (value : Nat) (ends : Ends rest) :
    takeLiteral (Nat.toDigits 10 value ++ rest) =
      some (⟨false, (Nat.toDigits 10 value).map digitOf, none, none⟩, rest) := by
  have unsigned (behind : List Char) : Nat.toDigits 10 value ++ rest ≠ '-' :: behind :=
    toDigits_append_ne behind rfl
  have taken := takeDigits_toDigits value ends
  obtain ⟨first, others, digits, alone⟩ := toDigits_alone value
  rw [digits] at taken ⊢
  simp only [takeLiteral, taken, takeFraction_of_ends ends, takeExponent_of_ends ends]

theorem takeLiteral_minus (value : Nat) (ends : Ends rest) :
    takeLiteral ('-' :: (Nat.toDigits 10 value ++ rest)) =
      some (⟨true, (Nat.toDigits 10 value).map digitOf, none, none⟩, rest) := by
  have taken := takeDigits_toDigits value ends
  obtain ⟨first, others, digits, alone⟩ := toDigits_alone value
  rw [digits] at taken ⊢
  simp only [takeLiteral, taken, takeFraction_of_ends ends, takeExponent_of_ends ends]

theorem appendDigits_toDigits {value : Nat} (fits : value < UInt64.size) :
    appendDigits 0 ((Nat.toDigits 10 value).map digitOf) = (value, []) := by
  rw [appendDigits_eq_foldl (by rwa [foldl_toDigits]), foldl_toDigits]

/-- A natural number that has been written is read as that number. -/
theorem readNumber_natural (value : UInt64) (ends : Ends rest) :
    readNumber .kept ((JsonNumber.natural value).chars ++ rest) =
      some (.number (.natural value), rest) := by
  rw [readNumber, JsonNumber.chars, takeLiteral_toDigits value.toNat ends]
  simp [Literal.number?, appendDigits_toDigits value.toNat_lt_size]

/-- A negative number that has been written is read as that number. -/
theorem readNumber_negative (below : Fin 0x8000000000000000) (ends : Ends rest) :
    readNumber .kept ((JsonNumber.negative below).chars ++ rest) =
      some (.number (.negative below), rest) := by
  have bound := below.isLt
  have fits : below.val + 1 < UInt64.size := by
    rw [UInt64.size]
    omega
  rw [readNumber, JsonNumber.chars, List.cons_append, takeLiteral_minus (below.val + 1) ends]
  simp [Literal.number?, appendDigits_toDigits fits, Nat.succ_le_of_lt bound]

theorem visible_toDigits (value : Nat) : ∀ written ∈ Nat.toDigits 10 value, 32 ≤ written.toNat := by
  intro written inside
  have decimal : written.isDigit = true :=
    Nat.isDigit_of_mem_toDigits (by decide) (by decide) inside
  have bounds := Char.isDigit_iff_toNat.mp decimal
  exact le_trans (by decide) bounds.1

end StratumMiner.Json
