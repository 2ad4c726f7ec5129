import StratumMiner.Text.Blank
import StratumMiner.Text.Digits

/-!
# The smallest parts of a pattern

A pattern is a regular expression. Three switches bear on what it may hold: whether case matters,
whether characters of all scripts are meant or only bytes, and whether blanks and comments may stand
between its parts. Its smallest parts are characters, named by themselves or by an escape, and
places in a text.

There are no tables of case or of the classes of characters of all scripts, so what would need one
is refused. Without all scripts, what could match a byte that is no whole character is refused.
-/

namespace StratumMiner.Pattern

/-- The switches that bear on what a pattern may hold. -/
structure Mode where
  /-- Upper and lower case are the same. -/
  caseless : Bool := false
  /-- Characters of all scripts are meant, not bytes. -/
  allScripts : Bool := true
  /-- Blanks and comments may stand between the parts. -/
  spaced : Bool := false
  deriving Repr, DecidableEq

/-- The text after blanks and comments. A comment reaches from a number sign to the end of its
line. -/
def skipBlanks (inComment : Bool) : List Char → List Char
  | [] => []
  | char :: rest =>
      if inComment then skipBlanks (char != '\n') rest
      else if Blank.isBlank char then skipBlanks false rest
      else if char == '#' then skipBlanks true rest
      else char :: rest

namespace Mode

/-- The text from its next part on. -/
def skip (mode : Mode) (text : List Char) : List Char :=
  if mode.spaced then skipBlanks false text else text

/-- The character behind a dash in a bracket. The look ahead passes over blanks and one number sign,
but not over a comment. -/
def peek? (mode : Mode) (text : List Char) : Option Char :=
  if mode.spaced then
    match text.dropWhile Blank.isBlank with
    | '#' :: comment => (comment.dropWhile Blank.isBlank).head?
    | visible => visible.head?
  else text.head?

/-- Set the switches before a dash and clear those behind it. -/
def switch (mode : Mode) (letters : List Char) : Mode :=
  let (set, cleared) := letters.span (· != '-')
  let after (letter : Char) (old : Bool) :=
    if set.contains letter then true else if cleared.contains letter then false else old
  { caseless := after 'i' mode.caseless
    allScripts := after 'u' mode.allScripts
    spaced := after 'x' mode.spaced }

/-- Whether a character may stand for itself outside brackets. -/
def admits (mode : Mode) (code : Nat) (isByte : Bool) : Bool :=
  if mode.allScripts then !mode.caseless else !(isByte && 0x80 ≤ code)

/-- Whether a character may be a member of a bracket. -/
def admitsMember (mode : Mode) (code : Nat) : Bool :=
  if mode.allScripts then !mode.caseless else code < 0x80

/-- Whether a named set of ASCII characters may be a member of a bracket. -/
def admitsSet (mode : Mode) (negated : Bool) : Bool :=
  if mode.allScripts then !mode.caseless else !negated

end Mode

/-! ## Characters and escapes -/

/-- A part of a pattern without parts of its own. -/
inductive Atom where
  /-- The character with this code, and whether two hexadecimal digits spell it. -/
  | literal (code : Nat) (isByte : Bool)
  /-- A set of ASCII characters. -/
  | set
  /-- A place, such as the start of the text. -/
  | place
  /-- An edge of a word, or any place but an edge. -/
  | wordEdge
  deriving Repr, DecidableEq

/-- Continue the code of a character with so many more hexadecimal digits. -/
def hexEscape? (mode : Mode) (code : Nat) : (missing : Nat) → List Char → Option (Nat × List Char)
  | 0, text => if code.isValidChar then some (code, text) else none
  | missing + 1, text =>
      match mode.skip text with
      | [] => none
      | char :: rest =>
          match Digits.hexValue? char with
          | none => none
          | some digit => hexEscape? mode (code * 16 + digit) missing rest

/-- The code of the control character that a letter stands for. -/
def controlCode? (letter : Char) : Option Nat :=
  if letter == 'a' then some 7
  else if letter == 't' then some 9
  else if letter == 'n' then some 10
  else if letter == 'v' then some 11
  else if letter == 'f' then some 12
  else if letter == 'r' then some 13
  else none

/-- Read what follows a backslash. -/
def escape? (mode : Mode) : List Char → Option (Atom × List Char)
  | [] => none
  | char :: rest =>
      let hex (digits : Nat) (isByte : Bool) :=
        (hexEscape? mode 0 digits rest).map fun (code, rest) => (Atom.literal code isByte, rest)
      if char == 'x' then hex 2 true
      else if char == 'u' then hex 4 false
      else if char == 'U' then hex 8 false
      else if char == 'd' || char == 's' || char == 'w' then
        if mode.allScripts then none else some (.set, rest)
      else if char == 'A' || char == 'z' then some (.place, rest)
      else if char == 'b' || char == 'B' || char == '<' || char == '>' then some (.wordEdge, rest)
      else
        match controlCode? char with
        | some code => some (.literal code false, rest)
        | none =>
            if char.toNat < 0x80 && !char.isAlphanum then some (.literal char.toNat false, rest)
            else none

end StratumMiner.Pattern
