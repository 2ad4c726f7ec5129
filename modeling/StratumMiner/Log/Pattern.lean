import StratumMiner.Log.Pattern.Bracket
import StratumMiner.Text.Alphanumeric

/-!
# Patterns for the values of fields

A directive may ask that the value of a field matches a pattern. The miner matches no value against
one; but a directive whose pattern cannot be used is refused, so all that is decided here is which
patterns can be used.

A pattern is read from left to right. Groups and brackets under way are kept on stacks, and each
part that is finished leaves behind how deep it nests. A counted repetition is always refused: the
brace that would close it ends the field.
-/

namespace StratumMiner.Pattern

/-- Why a pattern cannot be used. -/
inductive Fault where
  | malformed
  /-- It asks for the edges of words of all scripts. -/
  | wordEdges
  deriving Repr, DecidableEq

/-- The wording of a fault. -/
def Fault.message : Fault → String
  | .malformed => "error building NFA"
  | .wordEdges =>
      "unsupported regex feature for DFAs: cannot build DFAs for regexes with Unicode word " ++
        "boundaries; switch to ASCII word boundaries, or heuristically enable Unicode word " ++
        "boundaries or use a different regex engine"

/-- How deep a pattern may nest. -/
def depthLimit : Nat := 250

/-- A finished part: how deep it nests, and whether it can be repeated. -/
structure Part where
  depth : Nat
  repeatable : Bool
  deriving Repr, DecidableEq

/-- What surrounds a group under way. -/
structure Surrounding where
  mode : Mode
  parts : List Part
  branches : List Nat
  deriving Repr, DecidableEq

/-- What has been read of a pattern. -/
structure Reader where
  mode : Mode := {}
  /-- The brackets under way, innermost first. -/
  brackets : List Bracket := []
  /-- The parts of the branch under way, last first. -/
  parts : List Part := []
  /-- How deep the finished branches beside it nest. -/
  branches : List Nat := []
  /-- What surrounds the groups under way, innermost first. -/
  groups : List Surrounding := []
  /-- The names of groups. -/
  names : List (List Char) := []
  /-- Whether edges of words of all scripts have been asked for. -/
  wordEdges : Bool := false
  deriving Repr, DecidableEq

namespace Reader

/-- How deep the branch under way nests. -/
def branchDepth (reader : Reader) : Nat :=
  depthTogether (reader.parts.map Part.depth)

/-- How deep the inside of the group under way nests. -/
def depth (reader : Reader) : Nat :=
  if reader.branches.isEmpty then reader.branchDepth
  else reader.branches.foldl max reader.branchDepth + 1

/-- Add a part that can be repeated. -/
def add (reader : Reader) (depth : Nat) : Reader :=
  { reader with parts := ⟨depth, true⟩ :: reader.parts }

/-- Add an atom, if it may stand outside brackets. -/
def addAtom? (reader : Reader) : Atom → Option Reader
  | .literal code isByte =>
      if reader.mode.admits code isByte then some (reader.add 0) else none
  | .set => some (reader.add 0)
  | .place => some (reader.add 0)
  | .wordEdge =>
      some { reader.add 0 with wordEdges := reader.wordEdges || reader.mode.allScripts }

/-- Begin another branch. -/
def branch (reader : Reader) : Reader :=
  { reader with parts := [], branches := reader.branchDepth :: reader.branches }

/-- Repeat the last part. -/
def repeat? (reader : Reader) : Option Reader :=
  match reader.parts with
  | [] => none
  | part :: parts =>
      if part.repeatable then some { reader with parts := ⟨part.depth + 1, true⟩ :: parts }
      else none

/-- Begin a group in a mode. -/
def enter (reader : Reader) (mode : Mode) : Reader :=
  { reader with
    mode
    parts := []
    branches := []
    groups := ⟨reader.mode, reader.parts, reader.branches⟩ :: reader.groups }

/-- End a group, which also ends its mode. -/
def leave? (reader : Reader) : Option Reader :=
  match reader.groups with
  | [] => none
  | outside :: groups =>
      some
        { reader with
          mode := outside.mode
          parts := ⟨reader.depth + 1, true⟩ :: outside.parts
          branches := outside.branches
          groups }

/-- Whether a text can name a group. -/
def isName : List Char → Bool
  | [] => false
  | first :: rest =>
      (first == '_' || Alphanumeric.isAlphabetic first) &&
        rest.all fun char =>
          char == '_' || char == '.' || char == '[' || char == ']' ||
            Alphanumeric.isAlphanumeric char

/-- Begin a group whose name comes next. No two groups have one name. -/
def enterNamed? (reader : Reader) (text : List Char) : Option (Reader × List Char) :=
  match text.span (· != '>') with
  | (name, '>' :: rest) =>
      if isName name && !reader.names.contains name then
        some ({ reader.enter reader.mode with names := name :: reader.names }, rest)
      else none
  | _ => none

/-- Whether letters and dashes are switches: each at most once, and a dash never last. -/
def areSwitches (letters : List Char) : Bool :=
  letters.all (fun letter => "imsURux-".toList.contains letter) &&
    letters.eraseDups.length == letters.length && letters.getLast? != some '-'

/-- Read switches, which hold for the group that begins behind them, or else for the rest of the
group under way. -/
def enterSwitched? (reader : Reader) (text : List Char) : Option (Reader × List Char) :=
  let (letters, rest) := text.span fun char => char != ':' && char != ')'
  if areSwitches letters then
    match rest with
    | ':' :: rest => some (reader.enter (reader.mode.switch letters), rest)
    | ')' :: rest =>
        if letters.isEmpty then none
        else
          some
            ({ reader with
               mode := reader.mode.switch letters
               parts := ⟨0, false⟩ :: reader.parts }, rest)
    | _ => none
  else none

/-- Read what follows the parenthesis that begins a group. -/
def enter? (reader : Reader) : List Char → Option (Reader × List Char)
  | '?' :: 'P' :: '<' :: rest => reader.enterNamed? rest
  | '?' :: '<' :: rest => reader.enterNamed? rest
  | '?' :: rest => reader.enterSwitched? rest
  | text => some (reader.enter reader.mode, text)

/-- Read one part in a bracket. -/
def stepInside (reader : Reader) (bracket : Bracket) (outer : List Bracket) (char : Char)
    (rest : List Char) : Option (Reader × List Char) :=
  let mode := reader.mode
  let continued (bracket : Bracket) (rest : List Char) :=
    some ({ reader with brackets := bracket :: outer }, rest)
  if bracket.opening == .fresh && char == '^' then
    if mode.allScripts then continued { bracket with opening := .begun } rest else none
  else if bracket.opening != .past && char == '-' then
    if mode.admitsMember char.toNat then continued { bracket.add 0 with opening := .begun } rest
    else none
  else if bracket.opening != .past && bracket.members.isEmpty && char == ']' then
    if mode.admitsMember char.toNat then continued (bracket.add 0) rest else none
  else if char == '[' then
    match namedSet? rest with
    | some (negated, rest) =>
        if mode.admitsSet negated then continued (bracket.add 0) rest else none
    | none =>
        some ({ reader with brackets := {} :: { bracket with opening := .past } :: outer }, rest)
  else if char == ']' then
    match outer with
    | [] => some ({ reader with brackets := [] }.add (bracket.depth + 1), rest)
    | parent :: outer =>
        some ({ reader with brackets := parent.add (bracket.depth + 1) :: outer }, rest)
  else if isOperator char rest then continued bracket.operate rest.tail
  else
    match range? mode (char :: rest) with
    | none => none
    | some rest => continued (bracket.add 0) rest

/-- Read one part outside brackets. A question mark behind a repetition belongs to it. -/
def stepOutside (reader : Reader) (char : Char) (rest : List Char) : Option (Reader × List Char) :=
  if char == '(' then reader.enter? (reader.mode.skip rest)
  else if char == ')' then reader.leave?.map (·, rest)
  else if char == '|' then some (reader.branch, rest)
  else if char == '[' then some ({ reader with brackets := [{}] }, rest)
  else if char == '?' || char == '*' || char == '+' then
    reader.repeat?.map (·, if rest.head? == some '?' then rest.tail else rest)
  else if char == '\x7b' then none
  else if char == '\\' then
    match escape? reader.mode rest with
    | none => none
    | some (atom, rest) => (reader.addAtom? atom).map (·, rest)
  else if char == '.' then
    if reader.mode.allScripts then some (reader.add 0, rest) else none
  else if char == '^' || char == '$' then some (reader.add 0, rest)
  else (reader.addAtom? (.literal char.toNat false)).map (·, rest)

/-- Read one part. -/
def step (reader : Reader) (char : Char) (rest : List Char) : Option (Reader × List Char) :=
  match reader.brackets with
  | [] => reader.stepOutside char rest
  | bracket :: outer => reader.stepInside bracket outer char rest

/-- Read all parts, at most `fuel` of them. Every part has a character, so the length of the text is
enough. -/
def run (reader : Reader) : (fuel : Nat) → List Char → Option Reader
  | 0, _ => none
  | fuel + 1, text =>
      match reader.mode.skip text with
      | [] => if reader.brackets.isEmpty && reader.groups.isEmpty then some reader else none
      | char :: rest =>
          match reader.step char rest with
          | none => none
          | some (reader, rest) => run reader fuel rest

end Reader

/-- Why a pattern cannot be used, if it cannot. -/
def fault? (text : List Char) : Option Fault :=
  match Reader.run {} (text.length + 1) text with
  | none => some .malformed
  | some reader =>
      if depthLimit < reader.depth then some .malformed
      else if reader.wordEdges then some .wordEdges
      else none

end StratumMiner.Pattern
