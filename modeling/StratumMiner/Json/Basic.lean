import StratumMiner.Number.Double

/-!
# JSON values

A number is an integer that fits 64 bits, with or without a sign, or a double. An object is a list
of members in the order they are written; objects that have been read hold their members in
increasing order of keys, one member to a key.
-/

namespace StratumMiner

/-- A number in a JSON text. -/
inductive JsonNumber where
  | natural (value : UInt64)
  /-- The integer `-(below + 1)`. -/
  | negative (below : Fin 0x8000000000000000)
  | double (value : Double)
  deriving Repr, DecidableEq

/-- A JSON value. -/
inductive Json where
  | null
  | bool (value : Bool)
  | number (value : JsonNumber)
  | string (value : String)
  | array (items : List Json)
  | object (members : List (String × Json))
  deriving Repr, BEq, Inhabited

namespace Json

/-- The integer as a JSON value. -/
def ofNatural (value : UInt64) : Json :=
  .number (.natural value)

/-- The text of a string value. -/
def string? : Json → Option String
  | .string value => some value
  | _ => none

/-- The items of an array. -/
def array? : Json → Option (List Json)
  | .array items => some items
  | _ => none

/-- The members of an object. -/
def object? : Json → Option (List (String × Json))
  | .object members => some members
  | _ => none

/-- The value of a truth value. -/
def bool? : Json → Option Bool
  | .bool value => some value
  | _ => none

/-- The value of an integer that is not negative. A double never counts, whole or not. -/
def natural? : Json → Option UInt64
  | .number (.natural value) => some value
  | _ => none

/-- The double nearest to a number. -/
def double? : Json → Option Double
  | .number (.natural value) => some (Double.ofNat value.toNat)
  | .number (.negative below) => some (Double.ofNat (below.val + 1)).negate
  | .number (.double value) => some value
  | _ => none

/-- The value of a member of an object. -/
def member? (key : String) : Json → Option Json
  | .object members => (members.find? fun member => member.1 == key).map Prod.snd
  | _ => none

/-- Put a member into its place by key, over an earlier one of the same key. -/
def insertMember (key : String) (value : Json) :
    List (String × Json) → List (String × Json)
  | [] => [(key, value)]
  | member :: rest =>
      if key < member.1 then (key, value) :: member :: rest
      else if key = member.1 then (key, value) :: rest
      else member :: insertMember key value rest

/-- The object of members read in this order. -/
def ofMembers (members : List (String × Json)) : Json :=
  .object (members.foldl (fun sorted member => insertMember member.1 member.2 sorted) [])

end Json

end StratumMiner
