import StratumMiner.Pool.Line
import StratumMiner.Pool.Message
import StratumMiner.Text.Blank

/-!
# Messages from a connection

Lines are trimmed of blanks, empty ones are passed over, and each of the others is read as a
message. A line that is no message is reported together with its text.
-/

namespace StratumMiner

/-- A line from the pool that is not blank. -/
structure Incoming where
  /-- The text of the line, without blanks around it. -/
  line : String
  content : Except Message.Fault Message

namespace Incoming

/-- What a line holds, unless it is blank. -/
def ofLine (line : String) : Option Incoming :=
  let line := Blank.trim line
  if line = "" then none else some { line, content := Message.read line }

/-- What is wrong with a line, followed by the line. -/
def complaint (line : String) (fault : Message.Fault) : String :=
  fault.message ++ ", line: " ++ line

/-- Everything that a whole stream of bytes holds. -/
def ofStream (stream : Bytes) : List Incoming :=
  let (lines, _) := ((LineDecoder.empty maxLineLength).append stream).decodeRest
  lines.filterMap ofLine

end Incoming

end StratumMiner
