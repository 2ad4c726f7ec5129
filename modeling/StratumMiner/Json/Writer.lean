import StratumMiner.Json.Basic
import StratumMiner.Number.Style

/-!
# JSON text of a value

The text is compact: no blanks, members in the order of the value. In strings only the quotation
mark, the backslash and the control characters below U+0020 are escaped, five of them by a letter
and the others by four hexadecimal digits.
-/

namespace StratumMiner

/-- The digits of a number. -/
def JsonNumber.chars : JsonNumber → List Char
  | .natural value => Nat.toDigits 10 value.toNat
  | .negative below => '-' :: Nat.toDigits 10 (below.val + 1)
  | .double value => (value.write .json).toList

namespace Json

/-- One character inside a string. -/
def escapeChar (char : Char) : List Char :=
  if char = '"' then ['\\', '"']
  else if char = '\\' then ['\\', '\\']
  else if char = '\x08' then ['\\', 'b']
  else if char = '\t' then ['\\', 't']
  else if char = '\n' then ['\\', 'n']
  else if char = '\x0c' then ['\\', 'f']
  else if char = '\r' then ['\\', 'r']
  else if char.toNat < 16 then ['\\', 'u', '0', '0', '0', Nat.digitChar char.toNat]
  else if char.toNat < 32 then ['\\', 'u', '0', '0', '1', Nat.digitChar (char.toNat - 16)]
  else [char]

/-- A string between its quotation marks. -/
def stringChars (value : String) : List Char :=
  '"' :: value.toList.flatMap escapeChar ++ ['"']

mutual

/-- The text of a value, as characters. -/
def chars : Json → List Char
  | .null => ['n', 'u', 'l', 'l']
  | .bool true => ['t', 'r', 'u', 'e']
  | .bool false => ['f', 'a', 'l', 's', 'e']
  | .number value => value.chars
  | .string value => stringChars value
  | .array items => '[' :: itemsChars items ++ [']']
  | .object members => '\x7b' :: membersChars members ++ ['\x7d']

/-- The items of an array, separated by commas. -/
def itemsChars : List Json → List Char
  | [] => []
  | [item] => item.chars
  | item :: next :: rest => item.chars ++ ',' :: itemsChars (next :: rest)

/-- The members of an object, separated by commas. -/
def membersChars : List (String × Json) → List Char
  | [] => []
  | [(key, value)] => stringChars key ++ ':' :: value.chars
  | (key, value) :: next :: rest =>
      stringChars key ++ ':' :: (value.chars ++ ',' :: membersChars (next :: rest))

end

/-- The text of a value. -/
def text (value : Json) : String :=
  String.ofList value.chars

end Json

end StratumMiner
