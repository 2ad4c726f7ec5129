/-!
# Log records

A record has a severity, the part of the miner that it comes from, a message and named values. It
is written on one line: severity, part, message, then the values. Every part has a full name, by
which filters select records; lines show the name without the miner's own.
-/

namespace StratumMiner

/-- How grave a record is, gravest first. -/
inductive Severity where
  | error
  | warn
  | info
  | debug
  | trace
  deriving Repr, DecidableEq

/-- Severities are counted from one, gravest first. -/
def Severity.rank : Severity → Nat
  | .error => 1
  | .warn => 2
  | .info => 3
  | .debug => 4
  | .trace => 5

/-- The severity in a line, filled up to five characters. -/
def Severity.label : Severity → String
  | .error => "ERROR"
  | .warn => "WARN "
  | .info => "INFO "
  | .debug => "DEBUG"
  | .trace => "TRACE"

/-- The parts of the miner that write records. -/
inductive Reporter where
  | daemon
  | poolClient
  | poolConnection
  | worker
  | dispatcher
  deriving Repr, DecidableEq

/-- The name of a part in lines. -/
def Reporter.name : Reporter → String
  | .daemon => "daemon"
  | .poolClient => "stratum_v1::client"
  | .poolConnection => "stratum_v1::connection"
  | .worker => "cpu_miner::hasher"
  | .dispatcher => "cpu_miner::dispatch"

/-- The full name of a part. -/
def Reporter.path (reporter : Reporter) : String :=
  "cpuminer::" ++ reporter.name

/-- One event in the life of the miner. -/
structure LogRecord where
  severity : Severity
  reporter : Reporter
  message : String
  /-- Named values, in the order in which they are shown. -/
  fields : List (String × String) := []
  deriving Repr, DecidableEq

namespace LogRecord

/-- The names under which a record holds something. -/
def fieldNames (record : LogRecord) : List String :=
  "message" :: record.fields.map Prod.fst

/-- The line of a record, without the time of day. -/
def line (record : LogRecord) : String :=
  record.fields.foldl (fun text field => text ++ " " ++ field.1 ++ "=" ++ field.2)
    (record.severity.label ++ " " ++ record.reporter.name ++ ": " ++ record.message)

end LogRecord

end StratumMiner
