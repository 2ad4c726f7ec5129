import StratumMiner.Log.Pattern.Atom

/-!
# Brackets of a pattern

A bracket lists the characters of a set: single ones, ranges, named sets and further brackets, with
operators between two sides. Of a bracket under way only what bears on its shape is kept: how deep
its members nest, and what may still come.
-/

namespace StratumMiner.Pattern

/-- How deep parts side by side nest: one part as deep as itself, several one level deeper than the
deepest of them. -/
def depthTogether : List Nat → Nat
  | [] => 0
  | [depth] => depth
  | depths => depths.foldl max 0 + 1

/-- What may still come at the start of a bracket. -/
inductive Opening where
  /-- A negation, dashes, or a closing bracket that stands for itself. -/
  | fresh
  /-- Dashes, or a closing bracket that stands for itself. -/
  | begun
  /-- Nothing special. -/
  | past
  deriving Repr, DecidableEq

/-- A bracket under way: how deep each member since its last operator nests, and how deep all that
stands before that operator does. -/
structure Bracket where
  opening : Opening := .fresh
  members : List Nat := []
  left : Option Nat := none
  deriving Repr, DecidableEq

namespace Bracket

/-- How deep the inside of a bracket nests. -/
def depth (bracket : Bracket) : Nat :=
  let right := depthTogether bracket.members
  match bracket.left with
  | none => right
  | some left => max left right + 1

/-- Add a member. -/
def add (bracket : Bracket) (depth : Nat) : Bracket :=
  { bracket with opening := .past, members := depth :: bracket.members }

/-- Begin the right side of an operator. -/
def operate (bracket : Bracket) : Bracket :=
  { opening := .past, members := [], left := some bracket.depth }

end Bracket

/-- The names of the sets of ASCII characters. -/
def setNames : List String :=
  ["alnum", "alpha", "ascii", "blank", "cntrl", "digit", "graph", "lower", "print", "punct",
    "space", "upper", "word", "xdigit"]

/-- Read a named set, such as `[:alpha:]` or `[:^alpha:]`, behind its opening bracket: whether it is
negated, and what follows. -/
def namedSet? : List Char → Option (Bool × List Char)
  | ':' :: text =>
      let negated := text.head? == some '^'
      match (if negated then text.tail else text).span (· != ':') with
      | (name, ':' :: ']' :: rest) =>
          if setNames.contains (String.ofList name) then some (negated, rest) else none
      | _ => none
  | _ => none

/-- Read one character or escape in a bracket. -/
def member? (mode : Mode) : List Char → Option (Atom × List Char)
  | [] => none
  | char :: rest =>
      if char == '\\' then escape? mode rest else some (.literal char.toNat false, rest)

/-- Whether an atom alone may be a member. -/
def Mode.admitsAlone (mode : Mode) : Atom → Bool
  | .literal code _ => mode.admitsMember code
  | .set => true
  | .place => false
  | .wordEdge => false

/-- Whether two atoms may be the ends of a range. -/
def Mode.admitsRange (mode : Mode) : Atom → Atom → Bool
  | .literal low _, .literal high _ =>
      low ≤ high && mode.admitsMember low && mode.admitsMember high
  | _, _ => false

/-- Read a member or a range of members. A dash before a closing bracket or another dash makes no
range. -/
def range? (mode : Mode) (text : List Char) : Option (List Char) :=
  match member? mode text with
  | none => none
  | some (low, rest) =>
      let alone := if mode.admitsAlone low then some (mode.skip rest) else none
      match mode.skip rest with
      | [] => none
      | char :: after =>
          if char != '-' || mode.peek? after == some ']' || mode.peek? after == some '-' then alone
          else
            match member? mode (mode.skip after) with
            | none => none
            | some (high, rest) => if mode.admitsRange low high then some rest else none

/-- Whether a character begins an operator between the two sides of a bracket. -/
def isOperator (char : Char) (rest : List Char) : Bool :=
  (char == '&' || char == '-' || char == '~') && rest.head? == some char

end StratumMiner.Pattern
