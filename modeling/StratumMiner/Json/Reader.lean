import StratumMiner.Json.Basic
import StratumMiner.Text.Digits

/-!
# Reading JSON text

A reader takes a value off the front of a list of characters and returns what is left. Values nest
at most as deep as the caller allows, which also makes the reading recur on that depth; loops over
items and members are bounded by a limit, for which the length of the text is always enough.

A value that will be thrown away is read for its shape alone: its escapes need not pair up into
characters and its numbers need not fit any type.

The digits of a number are kept while they fit 64 bits; what the remaining digits and the exponent
say is a power of ten, by which the kept digits are multiplied or divided in double arithmetic. A
product past the largest double is no number.
-/

namespace StratumMiner.Json

/-- What must hold of a value besides its shape. -/
inductive Care where
  /-- The value is kept. -/
  | kept
  /-- The value is thrown away. -/
  | shapeOnly
  deriving Repr, DecidableEq

/-- Blanks between the parts of a JSON text. -/
def isSpace (char : Char) : Bool :=
  char == ' ' || char == '\t' || char == '\n' || char == '\r'

/-- The text after leading blanks. -/
def skipSpace (chars : List Char) : List Char :=
  chars.dropWhile isSpace

/-! ## Strings -/

/-- The code unit spelled by four hexadecimal digits. -/
def codeUnit? (first second third fourth : Char) : Option Nat := do
  let first ← Digits.hexValue? first
  let second ← Digits.hexValue? second
  let third ← Digits.hexValue? third
  let fourth ← Digits.hexValue? fourth
  return ((first * 16 + second) * 16 + third) * 16 + fourth

/-- The character of a one-letter escape. -/
def shortEscape? (letter : Char) : Option Char :=
  if letter = '"' then some '"'
  else if letter = '\\' then some '\\'
  else if letter = '/' then some '/'
  else if letter = 'b' then some '\x08'
  else if letter = 'f' then some '\x0c'
  else if letter = 'n' then some '\n'
  else if letter = 'r' then some '\r'
  else if letter = 't' then some '\t'
  else none

/-- Whether a code unit opens a pair. -/
def isHighUnit (unit : Nat) : Bool :=
  0xd800 ≤ unit && unit ≤ 0xdbff

/-- Whether a code unit closes a pair. -/
def isLowUnit (unit : Nat) : Bool :=
  0xdc00 ≤ unit && unit ≤ 0xdfff

/-- The rest of a string after its opening mark, onto the reversed characters read so far.
`pending` is a code unit that has opened a pair; the very next thing must be its partner. -/
def readString (care : Care) (pending : Option Nat) (done : List Char) :
    List Char → Option (List Char × List Char)
  | [] => none
  | '"' :: rest => if pending.isSome then none else some (done.reverse, rest)
  | '\\' :: 'u' :: first :: second :: third :: fourth :: rest =>
      match codeUnit? first second third fourth with
      | none => none
      | some unit =>
          match care, pending with
          | .shapeOnly, _ => readString care none done rest
          | .kept, some high =>
              if isLowUnit unit then
                let char := Char.ofNat ((high - 0xd800) * 1024 + (unit - 0xdc00) + 0x10000)
                readString care none (char :: done) rest
              else none
          | .kept, none =>
              if isHighUnit unit then readString care (some unit) done rest
              else if isLowUnit unit then none
              else readString care none (Char.ofNat unit :: done) rest
  | '\\' :: letter :: rest =>
      match shortEscape? letter, pending with
      | some char, none => readString care none (char :: done) rest
      | _, _ => none
  | char :: rest =>
      if char.toNat < 32 || pending.isSome || char = '\\' then none
      else readString care none (char :: done) rest

/-! ## Numbers -/

/-- The parts of a number as written. -/
structure Literal where
  negative : Bool
  whole : List Nat
  fraction : Option (List Nat)
  exponent : Option (Bool × List Nat)

/-- The leading digits of a text and what follows them. -/
def takeDigits : List Char → List Nat × List Char
  | [] => ([], [])
  | char :: rest =>
      match Digits.decimalValue? char with
      | some digit =>
          let (digits, left) := takeDigits rest
          (digit :: digits, left)
      | none => ([], char :: rest)

/-- The digits after a point, of which there is at least one, if there is a point. -/
def takeFraction : List Char → Option (Option (List Nat) × List Char)
  | '.' :: rest =>
      match takeDigits rest with
      | ([], _) => none
      | (digits, left) => some (some digits, left)
  | chars => some (none, chars)

/-- The sign and digits of an exponent, of which there is at least one, if there is an exponent. -/
def takeExponent : List Char → Option (Option (Bool × List Nat) × List Char)
  | [] => some (none, [])
  | mark :: rest =>
      if mark = 'e' ∨ mark = 'E' then
        let (negative, digits) :=
          match rest with
          | '+' :: digits => (false, digits)
          | '-' :: digits => (true, digits)
          | digits => (false, digits)
        match takeDigits digits with
        | ([], _) => none
        | (digits, left) => some (some (negative, digits), left)
      else some (none, mark :: rest)

/-- The number at the front of a text. A zero at its front stands alone. -/
def takeLiteral (chars : List Char) : Option (Literal × List Char) :=
  let (negative, chars) :=
    match chars with
    | '-' :: rest => (true, rest)
    | chars => (false, chars)
  match takeDigits chars with
  | ([], _) => none
  | (0 :: _ :: _, _) => none
  | (whole, rest) =>
      match takeFraction rest with
      | none => none
      | some (fraction, rest) =>
          match takeExponent rest with
          | none => none
          | some (exponent, rest) => some (⟨negative, whole, fraction, exponent⟩, rest)

/-- Append digits to a number while it stays below `2 ^ 64`; the digits that are left over. -/
def appendDigits (value : Nat) : List Nat → Nat × List Nat
  | [] => (value, [])
  | digit :: rest =>
      if value * 10 + digit < UInt64.size then appendDigits (value * 10 + digit) rest
      else (value, digit :: rest)

/-- A double times a power of ten. An exponent below the table is approached in steps; after three
of them nothing is left of any number that fits 64 bits. -/
def scaleByTen (value : Double) (exponent : Int) : (steps : Nat) → Option Double
  | 0 => some value
  | steps + 1 =>
      if exponent.natAbs ≤ 308 then
        let power := Double.ofNat (Nat.pow 10 exponent.natAbs)
        let scaled := if 0 ≤ exponent then value.mul power else value.div power
        if scaled.isFinite then some scaled else none
      else if value.isZero then some value
      else if 0 ≤ exponent then none
      else scaleByTen (value.div (Double.ofNat (Nat.pow 10 308))) (exponent + 308) steps

/-- The double of a number as written. -/
def Literal.double? (literal : Literal) : Option Double :=
  let (kept, dropped) := appendDigits 0 literal.whole
  let fraction := literal.fraction.getD []
  let (kept, ignored) := appendDigits kept fraction
  let written : Int :=
    match literal.exponent with
    | none => 0
    | some (negative, digits) =>
        let magnitude : Nat := digits.foldl (fun value digit => value * 10 + digit) 0
        if negative then -(magnitude : Int) else magnitude
  let exponent : Int := dropped.length - (fraction.length - ignored.length : Nat) + written
  match scaleByTen (Double.ofNat kept) exponent 4 with
  | none => none
  | some value => some (if literal.negative then value.negate else value)

/-- The value of a number as written: an integer if it is written as one and fits 64 bits, else a
double. Minus zero is a double. -/
def Literal.number? (literal : Literal) : Option JsonNumber :=
  match literal.fraction, literal.exponent, appendDigits 0 literal.whole with
  | none, none, (magnitude, []) =>
      if literal.negative then
        if small : 0 < magnitude ∧ magnitude ≤ 0x8000000000000000 then
          some (.negative ⟨magnitude - 1, by omega⟩)
        else some (.double (Double.ofNat magnitude).negate)
      else some (.natural (UInt64.ofNat magnitude))
  | _, _, _ => literal.double?.map .double

/-- The number at the front of a text. -/
def readNumber (care : Care) (chars : List Char) : Option (Json × List Char) :=
  match takeLiteral chars with
  | none => none
  | some (literal, rest) =>
      match care with
      | .shapeOnly => some (.null, rest)
      | .kept =>
          match literal.number? with
          | none => none
          | some value => some (.number value, rest)

/-! ## Values -/

/-- The value at the front of a text without leading blanks, if it holds no other values. -/
def readLeaf (care : Care) (chars : List Char) : Option (Json × List Char) :=
  match chars with
  | 'n' :: 'u' :: 'l' :: 'l' :: rest => some (.null, rest)
  | 't' :: 'r' :: 'u' :: 'e' :: rest => some (.bool true, rest)
  | 'f' :: 'a' :: 'l' :: 's' :: 'e' :: rest => some (.bool false, rest)
  | '"' :: rest =>
      match readString care none [] rest with
      | none => none
      | some (value, rest) => some (.string (String.ofList value), rest)
  | chars => readNumber care chars

/-- The items of an array after the first bracket, at most `fuel` of them, onto the reversed items
read so far. -/
def readItems (read : List Char → Option (Json × List Char)) :
    (fuel : Nat) → (done : List Json) → List Char → Option (List Json × List Char)
  | 0, _, _ => none
  | fuel + 1, done, chars =>
      match read chars with
      | none => none
      | some (item, rest) =>
          match skipSpace rest with
          | ',' :: rest => readItems read fuel (item :: done) rest
          | ']' :: rest => some ((item :: done).reverse, rest)
          | _ => none

/-- The members of an object after the first brace, at most `fuel` of them, onto the reversed
members read so far. How a value is read may depend on its key. -/
def readMembers (care : Care) (read : String → List Char → Option (Json × List Char)) :
    (fuel : Nat) → (done : List (String × Json)) → List Char →
      Option (List (String × Json) × List Char)
  | 0, _, _ => none
  | fuel + 1, done, chars =>
      match skipSpace chars with
      | '"' :: rest =>
          match readString care none [] rest with
          | none => none
          | some (key, rest) =>
              let key := String.ofList key
              match skipSpace rest with
              | ':' :: rest =>
                  match read key rest with
                  | none => none
                  | some (value, rest) =>
                      match skipSpace rest with
                      | ',' :: rest => readMembers care read fuel ((key, value) :: done) rest
                      | '\x7d' :: rest => some (((key, value) :: done).reverse, rest)
                      | _ => none
              | _ => none
      | _ => none

/-- All items of an array after its opening bracket, at most `limit` of them. -/
def readArray (read : List Char → Option (Json × List Char)) (limit : Nat) (chars : List Char) :
    Option (List Json × List Char) :=
  match skipSpace chars with
  | ']' :: rest => some ([], rest)
  | chars => readItems read limit [] chars

/-- All members of an object after its opening brace, at most `limit` of them. -/
def readObject (care : Care) (read : String → List Char → Option (Json × List Char))
    (limit : Nat) (chars : List Char) : Option (List (String × Json) × List Char) :=
  match skipSpace chars with
  | '\x7d' :: rest => some ([], rest)
  | chars => readMembers care read limit [] chars

/-- The value at the front of a text, with at most `depth` arrays and objects inside each other and
at most `limit` items or members in each. The length of the text is always enough for a limit. -/
def readValue (care : Care) (limit : Nat) : (depth : Nat) → List Char → Option (Json × List Char)
  | 0, chars => readLeaf care (skipSpace chars)
  | depth + 1, chars =>
      match skipSpace chars with
      | '[' :: rest =>
          match readArray (readValue care limit depth) limit rest with
          | none => none
          | some (items, rest) => some (.array items, rest)
      | '\x7b' :: rest =>
          match readObject care (fun _ => readValue care limit depth) limit rest with
          | none => none
          | some (members, rest) => some (ofMembers members, rest)
      | chars => readLeaf care chars

/-- How deep values may nest. -/
def maxDepth : Nat := 127

/-- The value of a text that holds one value and blanks around it. -/
def read? (text : String) : Option Json :=
  match readValue .kept text.length maxDepth text.toList with
  | none => none
  | some (value, rest) => if skipSpace rest = [] then some value else none

end StratumMiner.Json
