import StratumMiner.Log.Pattern
import StratumMiner.Log.Record
import StratumMiner.Text.Utf8

/-!
# Directives of a log filter

A directive names a level, or the parts of the miner it is for and then a level; a part alone means
all its records. It may also ask for fields that a record must have, for values of them, and for a
span around the record.

The miner opens no spans. A directive tied to a span or to values of fields therefore lets nothing
through, but it can still be at fault: a value is a truth value or a number, and otherwise a pattern
that must be one that can be used.
-/

namespace StratumMiner

/-- A directive for the records of the parts whose full name begins with `target`, if it is given,
and that have all the fields. -/
structure LogDirective where
  target : Option String
  fields : List String
  /-- The largest rank let through; none at all for zero. -/
  level : Nat
  deriving Repr, DecidableEq

namespace LogDirective

/-- What a directive in a filter text says. -/
inductive Reading where
  | plain (directive : LogDirective)
  /-- Tied to a span or to values of fields. -/
  | tied
  deriving Repr, DecidableEq

/-- Why a directive cannot be read. -/
inductive Fault where
  | malformed
  | unknownLevel
  | badPattern (fault : Pattern.Fault)
  deriving Repr, DecidableEq

/-- The wording of a fault. -/
def Fault.message : Fault → String
  | .malformed => "invalid filter directive"
  | .unknownLevel =>
      "error parsing level filter: expected one of \"off\", \"error\", \"warn\", \"info\", " ++
        "\"debug\", \"trace\", or a number 0-5"
  | .badPattern fault => "invalid field filter: " ++ fault.message

/-- The rank that lets everything through. -/
def everything : Nat := 5

/-- The rank that a level names, by number or by word. -/
def level? (text : List Char) : Option Nat :=
  match Digits.parseDecimal (UInt64.size - 1) text with
  | .ok number => if number ≤ 5 then some number else none
  | .error _ =>
      let lowered := text.map Char.toLower
      if lowered = "error".toList then some 1
      else if lowered = "warn".toList then some 2
      else if lowered = "info".toList then some 3
      else if lowered = "debug".toList then some 4
      else if lowered = "trace".toList then some 5
      else if lowered = "off".toList then some 0
      else none

/-! ## Fields -/

/-- The digits at the start of a text, and the rest. -/
def spanDigits (text : List Char) : List Char × List Char :=
  text.span Char.isDigit

/-- The text without a sign. -/
def dropSign : List Char → List Char
  | [] => []
  | char :: rest => if char == '+' || char == '-' then rest else char :: rest

/-- Whether a text is empty or the exponent of a number. -/
def isExponent : List Char → Bool
  | [] => true
  | letter :: rest =>
      let digits := dropSign rest
      letter.toLower == 'e' && !digits.isEmpty && digits.all Char.isDigit

/-- Whether a text is a number: a sign or none, then digits with a point or without one and with an
exponent or without one, or else infinity or no number at all. -/
def isNumber (text : List Char) : Bool :=
  let unsigned := dropSign text
  let word := unsigned.map Char.toLower
  let (whole, rest) := spanDigits unsigned
  let (fraction, rest) := if rest.head? == some '.' then spanDigits rest.tail else ([], rest)
  word == "inf".toList || word == "infinity".toList || word == "nan".toList ||
    (!(whole.isEmpty && fraction.isEmpty) && isExponent rest)

/-- Whether a text is a truth value. -/
def isTruth (text : List Char) : Bool :=
  text == "true".toList || text == "false".toList

/-- Read a field: its name, and whether a value is asked for. A value ends at a second equals sign,
and what follows that has no meaning. -/
def readField (text : List Char) : Except Fault (String × Bool) :=
  if text.isEmpty then .error .malformed
  else
    let (name, rest) := text.span (· != '=')
    match rest with
    | [] => .ok (String.ofList name, false)
    | _ :: rest =>
        let value := rest.takeWhile (· != '=')
        if isTruth value || isNumber value then .ok (String.ofList name, true)
        else
          match Pattern.fault? value with
          | none => .ok (String.ofList name, true)
          | some fault => .error (.badPattern fault)

/-! ## Directives -/

/-- Where the reading of a directive stands. -/
inductive State where
  | start
  /-- In a level or a target that began at this place. -/
  | name (start : Nat)
  /-- In the name of a span. -/
  | span (start : Nat)
  /-- In a field. -/
  | field (start : Nat)
  /-- Behind the fields. -/
  | fieldsEnd
  /-- Behind the span. -/
  | spanEnd
  /-- In the level behind a target. -/
  | level (start : Nat)
  deriving Repr, DecidableEq

/-- What has been read of a directive. -/
structure Parts where
  target : Option String := none
  inSpan : Bool := false
  /-- Names of fields, and whether a value is asked for. -/
  fields : List (String × Bool) := []
  deriving Repr, DecidableEq

/-- Whether a level or a target may begin with a character. -/
def canBegin (char : Char) : Bool :=
  char == '-' || char == ':' || char == '_' || Alphanumeric.isAlphanumeric char

/-- One character of a directive. Places are counted in bytes of the directive without the blanks
around it, but the pieces are cut out of the whole text. -/
def advance (whole : Bytes) (place : Nat) (char : Char) (state : State) (parts : Parts) :
    Except Fault (State × Parts) :=
  let piece (start : Nat) := Utf8.decode ((whole.take place).drop start)
  match state with
  | .start =>
      if char == '[' then .ok (.span (place + 1), parts)
      else if canBegin char then .ok (.name place, parts)
      else .error .malformed
  | .name start =>
      if char == '=' then .ok (.level (place + 1), { parts with target := some (piece start) })
      else if char == '[' then .ok (.span (place + 1), { parts with target := some (piece start) })
      else .ok (state, parts)
  | .span start =>
      if char == ']' then .ok (.spanEnd, { parts with inSpan := true })
      else if char == '\x7b' then
        .ok (.field (place + 1), { parts with inSpan := !(piece start).isEmpty })
      else .ok (state, parts)
  | .field start =>
      if char == '\x7d' then
        match readField (piece start).toList with
        | .error fault => .error fault
        | .ok field => .ok (.fieldsEnd, { parts with fields := parts.fields ++ [field] })
      else .ok (state, parts)
  | .fieldsEnd => if char == ']' then .ok (.spanEnd, parts) else .error .malformed
  | .spanEnd => if char == '=' then .ok (.level (place + 1), parts) else .error .malformed
  | .level _ => .ok (state, parts)

/-- All characters of a directive from a place on. -/
def scan (whole : Bytes) (place : Nat) (state : State) (parts : Parts) :
    List Char → Except Fault (State × Parts)
  | [] => .ok (state, parts)
  | char :: rest =>
      match advance whole place char state parts with
      | .error fault => .error fault
      | .ok (state, parts) => scan whole (place + char.utf8Size) state parts rest

/-- A directive with its level. -/
def finish (parts : Parts) (level : Nat) : Reading :=
  if parts.inSpan || parts.fields.any Prod.snd then .tied
  else .plain { target := parts.target, fields := parts.fields.map Prod.fst, level }

/-- Read one directive. -/
def read (text : String) : Except Fault Reading :=
  let whole := Utf8.encode text
  match scan whole 0 .start {} (Blank.trimChars text.toList) with
  | .error fault => .error fault
  | .ok (.name start, parts) =>
      let name := Utf8.decode (whole.drop start)
      match level? name.toList with
      | some level => .ok (finish parts level)
      | none => .ok (finish { parts with target := some name } everything)
  | .ok (.level start, parts) =>
      let name := Utf8.decode (whole.drop start)
      if name.isEmpty then .ok (finish parts everything)
      else
        match level? name.toList with
        | some level => .ok (finish parts level)
        | none => .error .unknownLevel
  | .ok (.spanEnd, parts) => .ok (finish parts everything)
  | .ok _ => .error .malformed

/-- Whether a directive is for a record. -/
def fits (directive : LogDirective) (record : LogRecord) : Bool :=
  (match directive.target with
    | none => true
    | some target => target.toList.isPrefixOf record.reporter.path.toList) &&
    directive.fields.all fun field => record.fieldNames.contains field

/-! ## Order -/

/-- Names in the order of the words of a dictionary; a missing name comes first. -/
def compareNames : Option String → Option String → Ordering
  | none, none => .eq
  | none, some _ => .lt
  | some _, none => .gt
  | some left, some right => compare left right

/-- Lists of names by their first difference; the start of a list comes before the whole. -/
def compareFields : List String → List String → Ordering
  | [], [] => .eq
  | [], _ :: _ => .lt
  | _ :: _, [] => .gt
  | left :: lefts, right :: rights => (compare left right).then (compareFields lefts rights)

/-- How specific a directive is: its target's length, counted from one when there is a target, and
the number of its fields. -/
def weight (directive : LogDirective) : Nat × Nat :=
  (match directive.target with
    | none => 0
    | some target => target.utf8ByteSize + 1,
   directive.fields.length)

/-- How two directives compare: by target length, then by number of fields, and of equally specific
ones by target and fields themselves. The greatest directive decides. -/
def order (left right : LogDirective) : Ordering :=
  (compare left.weight.1 right.weight.1).then
    ((compare left.weight.2 right.weight.2).then
      ((compareNames left.target right.target).then (compareFields left.fields right.fields)))

/-- Put a directive into its place, the greatest first, over an earlier one for the same records. -/
def insert (directive : LogDirective) : List LogDirective → List LogDirective
  | [] => [directive]
  | head :: rest =>
      match directive.order head with
      | .gt => directive :: head :: rest
      | .eq => directive :: rest
      | .lt => head :: insert directive rest

end LogDirective

end StratumMiner
