import StratumMiner.Text.Hex

/-!
# Unsigned numbers in text

A number is an optional plus sign and at least one digit. Digits are taken from left to right, and
the first cause to show decides: a character that is no digit, or a value past the limit.
-/

namespace StratumMiner.Digits

/-- Why a text is no number. -/
inductive Fault where
  | empty
  | invalidDigit
  | tooLarge
  deriving Repr, DecidableEq

/-- The wording of a fault. -/
def Fault.message : Fault → String
  | .empty => "cannot parse integer from empty string"
  | .invalidDigit => "invalid digit found in string"
  | .tooLarge => "number too large to fit in target type"

/-- The value of a decimal digit. -/
def decimalValue? (char : Char) : Option Nat :=
  if char.isDigit then some (char.toNat - 48) else none

/-- The value of a hexadecimal digit of either case. -/
def hexValue? (char : Char) : Option Nat :=
  (Hex.digitValue? char).map UInt8.toNat

/-- Continue a number at most `limit` with further digits in a base. -/
def accumulate (base limit : Nat) (value? : Char → Option Nat) (value : Nat) :
    List Char → Except Fault Nat
  | [] => .ok value
  | char :: rest =>
      match value? char with
      | none => .error .invalidDigit
      | some digit =>
          let next := value * base + digit
          if next ≤ limit then accumulate base limit value? next rest else .error .tooLarge

/-- Read a number at most `limit` in a base. A lone sign is a wrong digit. -/
def parse (base limit : Nat) (value? : Char → Option Nat) (text : List Char) : Except Fault Nat :=
  match text with
  | [] => .error .empty
  | ['+'] => .error .invalidDigit
  | '+' :: rest => accumulate base limit value? 0 rest
  | text => accumulate base limit value? 0 text

/-- Read a decimal number at most `limit`. -/
def parseDecimal (limit : Nat) (text : List Char) : Except Fault Nat :=
  parse 10 limit decimalValue? text

/-- Read a hexadecimal number at most `limit`. -/
def parseHex (limit : Nat) (text : List Char) : Except Fault Nat :=
  parse 16 limit hexValue? text

end StratumMiner.Digits
