import StratumMiner.Log.Record
import StratumMiner.Mining.Nonce
import StratumMiner.Pool.Fault

/-!
# What the pool client reports

Every report of the client and of its connection, and the record that it is written as.
-/

namespace StratumMiner

/-- How far the conversation with a pool has come. -/
inductive PoolStage where
  | disconnected
  | connecting
  | subscribed
  | authorized
  | mining
  deriving Repr, DecidableEq

/-- The name of a stage. -/
def PoolStage.name : PoolStage → String
  | .disconnected => "Disconnected"
  | .connecting => "Connecting"
  | .subscribed => "Subscribed"
  | .authorized => "Authorized"
  | .mining => "Mining"

/-- A report of the pool client. -/
inductive ClientNote where
  | stageChanged (before after : PoolStage)
  | subscribed (url : String) (subscription : Subscription)
  | authorized (username : String)
  | setupMalformed (detail : String)
  | setupOtherResponse (id : UInt64)
  | setupNotificationFailed (fault : NotificationFault)
  | setupRequest (method : String)
  | jobReceived (id : String) (clean : Bool)
  | difficultyReceived (difficulty : PoolDifficulty)
  | extranonceReceived (subscription : Subscription)
  | poolMessage (params : Json)
  | unknownMethod (method : String)
  | malformed (detail : String)
  | notificationFailed (method : String) (fault : NotificationFault)
  | request (method : String)
  | submitting (jobId : String) (nonce : UInt32)
  | unanswered (id : UInt64) (jobId : String)
  | unknownResponse (id : UInt64)
  | closedByPool (url : String)
  | shutdownRequested
  deriving Repr

namespace ClientNote

/-- A report of the client as a record. -/
def report (severity : Severity) (message : String) (fields : List (String × String)) :
    LogRecord :=
  { severity, reporter := .poolClient, message, fields }

/-- The record of a report. -/
def record : ClientNote → LogRecord
  | .stageChanged before after =>
      report .debug "Client state" [("from", before.name), ("to", after.name)]
  | .subscribed url subscription =>
      report .info "Subscribed"
        [("pool", url), ("extranonce1", Hex.encode subscription.extranonce1),
          ("extranonce2_size", toString subscription.size)]
  | .authorized username => report .info "Authorized" [("user", username)]
  | .setupMalformed detail =>
      report .warn "Ignoring malformed message from pool" [("error", detail)]
  | .setupOtherResponse id =>
      report .warn "Received response for different request" [("msg_id", toString id.toNat)]
  | .setupNotificationFailed fault =>
      report .warn "Error handling notification during setup"
        [("error", invalidMessage fault.message)]
  | .setupRequest method => report .warn "Server sent request during setup" [("method", method)]
  | .jobReceived id clean =>
      report .debug "Received job from pool" [("job_id", id), ("clean_jobs", toString clean)]
  | .difficultyReceived difficulty =>
      report .debug "Pool difficulty changed" [("difficulty", difficulty.display)]
  | .extranonceReceived subscription =>
      report .debug "Extranonce changed"
        [("extranonce1", Hex.encode subscription.extranonce1),
          ("extranonce2_size", toString subscription.size)]
  | .poolMessage params => report .info "Message from pool" [("text", params.text)]
  | .unknownMethod method => report .warn "Unknown notification method" [("method", method)]
  | .malformed detail =>
      report .warn "Received malformed message from pool, ignoring" [("error", detail)]
  | .notificationFailed method fault =>
      report .warn "Error handling notification"
        [("method", method), ("error", invalidMessage fault.message)]
  | .request method => report .warn "Server sent request (not notification)" [("method", method)]
  | .submitting jobId nonce =>
      report .debug "Submitting share" [("job_id", jobId), ("nonce", displayNonce nonce)]
  | .unanswered id jobId =>
      report .warn "No response to share submission"
        [("msg_id", toString id.toNat), ("job_id", jobId)]
  | .unknownResponse id =>
      report .warn "Response for unknown request" [("msg_id", toString id.toNat)]
  | .closedByPool url => report .info "Connection closed by pool" [("pool", url)]
  | .shutdownRequested => report .info "Shutdown requested" []

end ClientNote

/-- A report of the connection to a pool. -/
inductive ConnectionNote where
  | connecting (address : String)
  | connected (address : String)
  | received (line : String)
  | sending (line : String)
  | lineTooLong (maxLength : Nat)
  deriving Repr, DecidableEq

namespace ConnectionNote

/-- A report of the connection as a record. -/
def report (severity : Severity) (message name value : String) : LogRecord :=
  { severity, reporter := .poolConnection, message, fields := [(name, value)] }

/-- The record of a report. -/
def record : ConnectionNote → LogRecord
  | .connecting address => report .debug "Connecting to pool" "addr" address
  | .connected address => report .debug "Connected to pool" "addr" address
  | .received line => report .trace "Received message" "rx" line
  | .sending line => report .trace "Sending message" "tx" line
  | .lineTooLong maxLength =>
      report .warn "Line from pool too long, discarding" "max_length" (toString maxLength)

end ConnectionNote

end StratumMiner
