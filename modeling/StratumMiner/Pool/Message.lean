import StratumMiner.Json.Reader
import StratumMiner.Json.Writer

/-!
# Messages

Miner and pool exchange one message a line. Which of the three kinds it is follows from its fields:
a method with an id is a request, a method without one a notification, and an id without a method a
response. A field that is null counts as missing, missing parameters are an empty list, and unknown
fields are read for their shape alone. A message may also be written as the array of its fields in
their order.
-/

namespace StratumMiner

/-- A message between miner and pool. -/
inductive Message where
  | request (id : UInt64) (method : String) (params : Json)
  | response (id : UInt64) (result error : Option Json)
  | notification (method : String) (params : Json)
  deriving Repr, BEq

namespace Message

/-- Why a line is no message. -/
inductive Fault where
  /-- The line is not a JSON text with fields of the right types. -/
  | malformed
  /-- There is neither an id nor a method; the value of the error field. -/
  | unclassified (error : Json)
  deriving Repr

/-- The wording of a fault. What is wrong with a JSON text is not told apart. -/
def Fault.message : Fault → String
  | .malformed => "malformed message"
  | .unclassified error => "message has neither id nor method (error: " ++ error.text ++ ")"

/-- The fields of a message, in the order of the array form. -/
def fieldNames : List String :=
  ["id", "method", "params", "result", "error"]

/-- The id of a message. -/
def id? : Message → Option UInt64
  | .request id _ _ | .response id _ _ => some id
  | .notification _ _ => none

/-- The method of a message. -/
def method? : Message → Option String
  | .request _ method _ | .notification method _ => some method
  | .response _ _ _ => none

/-- The parameters of a message. -/
def params? : Message → Option Json
  | .request _ _ params | .notification _ params => some params
  | .response _ _ _ => none

/-! ## Writing -/

/-- The object of a message. -/
def toJson : Message → Json
  | .request id method params =>
      .object [("id", .ofNatural id), ("method", .string method), ("params", params)]
  | .response id result error =>
      .object [("id", .ofNatural id), ("result", result.getD .null), ("error", error.getD .null)]
  | .notification method params =>
      .object [("id", .null), ("method", .string method), ("params", params)]

/-- The line of a message, without its newline. -/
def line (message : Message) : String :=
  message.toJson.text

/-! ## Reading -/

/-- Values of the fields of a message, which may be missing. -/
abbrev Fields := List (String × Json)

/-- The value of a field that is there and not null. -/
def field? (fields : Fields) (name : String) : Option Json :=
  match fields.find? fun field => field.1 == name with
  | some (_, .null) | none => none
  | some (_, value) => some value

/-- Whether a known field is given twice. -/
def hasDuplicate (fields : Fields) : Bool :=
  fieldNames.any fun name => 1 < (fields.filter fun field => field.1 == name).length

/-- The message with the given fields. -/
def ofFields (fields : Fields) : Except Fault Message :=
  let params := (field? fields "params").getD (.array [])
  match field? fields "id", field? fields "method" with
  | some (.number (.natural id)), some (.string method) => .ok (.request id method params)
  | none, some (.string method) => .ok (.notification method params)
  | some (.number (.natural id)), none =>
      .ok (.response id (field? fields "result") (field? fields "error"))
  | none, none => .error (.unclassified ((field? fields "error").getD .null))
  | _, _ => .error .malformed

/-- The fields at the front of a text, as an object or as an array. -/
def readFields (chars : List Char) : Option (Fields × List Char) :=
  let limit := chars.length
  let readKept := Json.readValue .kept limit (Json.maxDepth - 1)
  match Json.skipSpace chars with
  | '\x7b' :: rest =>
      let read (name : String) :=
        if fieldNames.contains name then readKept else Json.readValue .shapeOnly limit limit
      match Json.readObject .kept read limit rest with
      | none => none
      | some (fields, rest) => if hasDuplicate fields then none else some (fields, rest)
  | '[' :: rest =>
      match Json.readArray readKept limit rest with
      | none => none
      | some (values, rest) =>
          if values.length ≤ fieldNames.length then some (fieldNames.zip values, rest) else none
  | _ => none

/-- The message of a line. A missing id and method are noticed before anything that follows the
fields. -/
def read (line : String) : Except Fault Message :=
  match readFields line.toList with
  | none => .error .malformed
  | some (fields, rest) =>
      match ofFields fields with
      | .error fault => .error fault
      | .ok message => if Json.skipSpace rest = [] then .ok message else .error .malformed

end Message

end StratumMiner
