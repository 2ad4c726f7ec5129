import StratumMiner.Text.Hex
import StratumMiner.Text.Visible

/-!
# Quoted text

Messages about a bad value show it between quotation marks so that nothing in it can be mistaken
for the message. The mark itself and the backslash are escaped by a backslash, four control
characters have names, every other hidden character is written as `\u{…}` with the hexadecimal
digits of its code point, and the rest stands for itself.
-/

namespace StratumMiner.Quoted

/-- One character between the given quotation marks. -/
def escape (mark : Char) (char : Char) : List Char :=
  if char == mark || char == '\\' then ['\\', char]
  else if char == '\n' then ['\\', 'n']
  else if char == '\r' then ['\\', 'r']
  else if char == '\t' then ['\\', 't']
  else if char == '\x00' then ['\\', '0']
  else if Visible.isHidden char then
    ['\\', 'u', '\x7b'] ++ Nat.toDigits 16 char.toNat ++ ['\x7d']
  else [char]

/-- A text in double quotation marks. -/
def text (value : String) : String :=
  String.ofList ('"' :: value.toList.flatMap (escape '"') ++ ['"'])

/-- A character in single quotation marks. -/
def char (value : Char) : String :=
  String.ofList ('\'' :: escape '\'' value ++ ['\''])

end StratumMiner.Quoted

namespace StratumMiner.Hex

/-- The wording of a fault. A wrong byte is shown as the character with its number. -/
def Fault.message : Fault → String
  | .oddLength => "Odd number of digits"
  | .invalidDigit byte position =>
      "Invalid character " ++ Quoted.char (Char.ofNat byte.toNat) ++ " at position " ++
        toString position

end StratumMiner.Hex
