import StratumMiner.Hash.Level
import StratumMiner.Log.Record
import StratumMiner.Mining.Nonce
import StratumMiner.Mining.Work

/-!
# What a worker reports

Every report of a worker, and the record that it is written as.
-/

namespace StratumMiner

/-- A report of a worker. -/
inductive WorkerNote where
  | started (range : NonceRange) (level : Level)
  | starting (work : Work)
  | oldEpoch (jobId : String)
  | invalid (jobId : String) (fault : Work.Fault)
  | found (share : Share)
  | shareDropped
  | rolled (ntime : UInt32)
  | exhausted (jobId : String)
  | superseded (jobId : String)
  | goingIdle
  | exiting
  deriving Repr, DecidableEq

namespace WorkerNote

/-- A report of a worker as a record. -/
def report (worker : String) (severity : Severity) (message : String)
    (fields : List (String × String)) : LogRecord :=
  { severity, reporter := .worker, message, fields := ("thread", worker) :: fields }

/-- The record of a report by the worker of this name. -/
def record (worker : String) : WorkerNote → LogRecord
  | .started range level =>
      report worker .debug "Mining thread started"
        [("range", range.display), ("level", level.name)]
  | .starting work =>
      report worker .debug "Starting work"
        [("job_id", work.job.id), ("target", work.target.display)]
  | .oldEpoch jobId => report worker .trace "Skipping work from an old epoch" [("job_id", jobId)]
  | .invalid jobId fault =>
      report worker .warn "Invalid work, idling" [("job_id", jobId), ("error", fault.message)]
  | .found share =>
      report worker .debug "Share found"
        [("job_id", share.jobId), ("nonce", displayNonce share.nonce),
          ("difficulty", share.difficulty.display)]
  | .shareDropped => report worker .trace "Share channel closed, dropping share" []
  | .rolled ntime => report worker .trace "Rolled ntime" [("ntime", Hex.padded 8 ntime.toNat)]
  | .exhausted jobId => report worker .debug "Nonce range exhausted, idling" [("job_id", jobId)]
  | .superseded jobId => report worker .trace "Work superseded by clean job" [("job_id", jobId)]
  | .goingIdle => report worker .debug "Going idle" []
  | .exiting => report worker .debug "Mining thread exiting" []

end WorkerNote

end StratumMiner
