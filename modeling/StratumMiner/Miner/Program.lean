import StratumMiner.Log.Filter
import StratumMiner.Miner.Rig

/-!
# The miner as a program

What the program writes for people: its log on standard output, one line for each record that the
filter lets through, and on standard error what is wrong with the filter and why the program failed.
-/

namespace StratumMiner.Program

/-- The variable that holds the filter of the log. -/
def filterVariable : String := "RUST_LOG"

/-- The lines of records that pass a filter. -/
def logLines (filter : LogFilter) (records : List LogRecord) : List String :=
  (records.filter filter.passes).map LogRecord.line

/-- The text for a failure. -/
def failureText (message : String) : String :=
  "Error: " ++ message ++ "\n"

/-- The context of a failure of the pool. -/
def poolFailure : String := "pool connection failed"

/-- The messages of a failure of the pool, from the outermost inwards. -/
def chain (fault : PoolFault) : List String :=
  [poolFailure, fault.message]

/-- The text for a failure with a cause, whose lines are indented. -/
def causedText (message cause : String) : String :=
  failureText (message ++ "\n\nCaused by:\n    " ++ "\n    ".intercalate (cause.splitOn "\n"))

/-- The text for a failure of the pool. -/
def poolFailureText (fault : PoolFault) : String :=
  causedText poolFailure fault.message

/-- The code with which the program ends. -/
def exitCode (failed : Bool) : UInt32 :=
  if failed then 1 else 0

end StratumMiner.Program
