import StratumMiner.Text.Blank
import StratumMiner.Text.Digits

/-!
# Hosts

A host is written as a number or by a name. A machine is found by its number at once, and by its
name only with the help of a name service; the one name that needs no service is that of the machine
itself.

A short number has one to four parts between points. Each part but the last is one byte and the
last part fills up the four bytes; a part is hexadecimal behind `0x`, octal behind `0`, and else
decimal. A long number has eight groups of two bytes in hexadecimal between colons. A run of its
groups may be left out between two colons, once, and four bytes in decimal may stand for its last
two groups.
-/

namespace StratumMiner.Host

/-! ## Short numbers -/

/-- The value of an octal digit. -/
def octalValue? (char : Char) : Option Nat :=
  if char.toNat < 56 then Digits.decimalValue? char else none

/-- Whether digits in a base spell a number up to a limit. -/
def isNumberUpTo (limit base : Nat) (value? : Char → Option Nat) (digits : List Char) : Bool :=
  match Digits.accumulate base limit value? 0 digits with
  | .ok _ => !digits.isEmpty
  | .error _ => false

/-- Whether a text is a part of a short number, with a value up to a limit. -/
def isPart (limit : Nat) (text : List Char) : Bool :=
  match text with
  | '0' :: 'x' :: digits | '0' :: 'X' :: digits => isNumberUpTo limit 16 Digits.hexValue? digits
  | '0' :: _ => isNumberUpTo limit 8 octalValue? text
  | _ => isNumberUpTo limit 10 Digits.decimalValue? text

/-- The parts of a short number, with `limit` on the last of them if it stands alone. -/
def areParts (limit : Nat) : List String → Bool
  | [] => false
  | [last] => isPart limit last.toList
  | part :: rest => isPart 255 part.toList && areParts (limit / 256) rest

/-- Whether a text is a short number. -/
def isShort (text : String) : Bool :=
  let parts := text.splitOn "."
  parts.length ≤ 4 && areParts (UInt32.size - 1) parts

/-! ## Long numbers -/

/-- Whether a text is one byte in decimal without needless zeros. -/
def isByte (text : List Char) : Bool :=
  isNumberUpTo 255 10 Digits.decimalValue? text && (text.head? != some '0' || text.length == 1)

/-- Whether a text is four bytes in decimal. -/
def isFourBytes (text : String) : Bool :=
  let parts := text.splitOn "."
  parts.length == 4 && parts.all fun part => isByte part.toList

/-- Whether a text is a group of a long number. -/
def isGroup (text : String) : Bool :=
  text.length ≤ 4 && isNumberUpTo 65535 16 Digits.hexValue? text.toList

/-- How many groups there are in a row of them, if they are groups. Four bytes at the end count as
two. -/
def countGroups? : List String → Option Nat
  | [] => some 0
  | [last] => if isGroup last then some 1 else if isFourBytes last then some 2 else none
  | group :: rest => if isGroup group then (countGroups? rest).map (· + 1) else none

/-- The pieces between the colons of a text, none of an empty text. -/
def pieces (text : String) : List String :=
  if text.isEmpty then [] else text.splitOn ":"

/-- Whether a text is a long number. -/
def isLong (text : String) : Bool :=
  match text.splitOn "::" with
  | [whole] => countGroups? (pieces whole) == some 8
  | [front, back] =>
      match countGroups? (pieces back) with
      | some count => (pieces front).all isGroup && (pieces front).length + count < 8
      | none => false
  | _ => false

/-! ## Hosts -/

/-- A host without the brackets that keep the colons of a long number apart from that of a port. -/
def unbracketed (host : String) : String :=
  match host.toList with
  | '[' :: rest =>
      let inner := String.ofList rest.dropLast
      if rest.getLast? == some ']' && isLong inner then inner else host
  | _ => host

/-- The name by which each machine knows itself. -/
def ownName : String := "localhost"

/-- Whether a machine is found without a name service. -/
def isDirect (host : String) : Bool :=
  isShort host || isLong host || Blank.lowerAscii host == ownName

end StratumMiner.Host
