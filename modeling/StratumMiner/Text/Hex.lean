import StratumMiner.Bytes

/-!
# Hexadecimal text

Bytes travel through pool messages as two hexadecimal digits each. Encoding writes lower case;
decoding takes either case and reports the first fault it meets: an odd count of bytes of text, or
the first byte of text that is no digit, with its position.
-/

namespace StratumMiner.Hex

/-- The lower-case digit of a number below sixteen. -/
def digit (value : UInt8) : Char :=
  if value < 10 then Char.ofNat (48 + value.toNat) else Char.ofNat (87 + value.toNat)

/-- The value of a hexadecimal digit of either case. -/
def digitValue? (char : Char) : Option UInt8 :=
  let code := char.toNat
  if 48 ≤ code ∧ code ≤ 57 then some (UInt8.ofNat (code - 48))
  else if 97 ≤ code ∧ code ≤ 102 then some (UInt8.ofNat (code - 87))
  else if 65 ≤ code ∧ code ≤ 70 then some (UInt8.ofNat (code - 55))
  else none

/-- Two lower-case digits for each byte. -/
def encodeChars : Bytes → List Char
  | [] => []
  | byte :: rest => digit (byte >>> 4) :: digit (byte &&& 15) :: encodeChars rest

/-- Two lower-case digits for each byte, as a string. -/
def encode (bytes : Bytes) : String :=
  String.ofList (encodeChars bytes)

/-- Why a text spells no bytes. -/
inductive Fault where
  /-- The text has an odd number of bytes. -/
  | oddLength
  /-- The byte at this position of the text is no digit. -/
  | invalidDigit (byte : UInt8) (position : Nat)
  deriving Repr, DecidableEq

/-- The first byte of a character in UTF-8. -/
def leadByte (char : Char) : UInt8 :=
  (String.utf8EncodeChar char).headD 0

/-- The bytes spelled by pairs of digits, the first of which stands at `position`. Everything before
the first fault is ASCII, so counting characters counts bytes of text. -/
def decodePairs (position : Nat) : List Char → Except Fault Bytes
  | [] => .ok []
  | [char] =>
      match digitValue? char with
      | none => .error (.invalidDigit (leadByte char) position)
      | some _ => .error .oddLength
  | high :: low :: rest =>
      match digitValue? high, digitValue? low with
      | some highValue, some lowValue =>
          match decodePairs (position + 2) rest with
          | .ok bytes => .ok ((highValue * 16 + lowValue) :: bytes)
          | .error fault => .error fault
      | none, _ => .error (.invalidDigit (leadByte high) position)
      | some _, none => .error (.invalidDigit (leadByte low) (position + 1))

/-- The bytes spelled by a text. An odd length is reported before any wrong digit. -/
def decode (text : String) : Except Fault Bytes :=
  if text.utf8ByteSize % 2 = 1 then .error .oddLength else decodePairs 0 text.toList

/-- The hexadecimal digits of a number, without leading zeros; zero has one digit. -/
def ofNat (value : Nat) : String :=
  String.ofList (Nat.toDigits 16 value)

/-- The hexadecimal digits of a number, filled with zeros on the left to a width. -/
def padded (width value : Nat) : String :=
  let digits := Nat.toDigits 16 value
  String.ofList (List.replicate (width - digits.length) '0' ++ digits)

end StratumMiner.Hex
