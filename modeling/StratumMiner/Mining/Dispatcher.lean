import StratumMiner.Log.Record
import StratumMiner.Mining.Order

/-!
# Dispatching jobs

The dispatcher turns jobs into work. It knows the extranonces of the session with the pool, of which
each job takes the next, and the difficulty of shares; without a difficulty the target in the job
counts. Every operation gives at most one order, the same for all workers.

A job that comes before a session is held. A new session takes up the job at hand again, as a clean
one, for work under other extranonces is worthless. A clean job moves the epoch on and makes shares
of earlier jobs stale; otherwise the latest eight jobs are current.

Epochs are counted in a word, and the sum that gives the epoch of a clean job is checked: in the
last epoch there, a clean job fails. `dispatch` and `subscribe` say what a job and a session come to
where the sum is in range, and `dispatch?` and `subscribe?` are the operations with the check.
-/

namespace StratumMiner

/-- The extranonces of a session with the pool. -/
structure Session where
  extranonce1 : Bytes
  /-- The second extranonce of the next job. -/
  next : Extranonce2
  deriving Repr, DecidableEq

/-- The state from which work is made. -/
structure Dispatcher where
  session : Option Session
  difficulty : Option PoolDifficulty
  /-- The latest job. -/
  current : Option Job
  /-- The ids of the jobs whose shares are still wanted, oldest first. -/
  recent : List String
  epoch : UInt64
  deriving Repr, DecidableEq

namespace Dispatcher

/-- How many jobs are current at once. -/
def recentJobs : Nat := 8

/-- A dispatcher without a session, in an epoch. -/
def initial (epoch : UInt64) : Dispatcher :=
  { session := none, difficulty := none, current := none, recent := [], epoch }

/-- The target of shares for a job. -/
def shareTarget (dispatcher : Dispatcher) (job : Job) : Target :=
  match dispatcher.difficulty with
  | some difficulty => difficulty.toTarget
  | none => Target.decode job.nbits

/-- The current jobs when another one is issued. -/
def remember (recent : List String) (job : Job) : List String :=
  let kept := if job.clean then [] else recent
  (if kept.length = recentJobs then kept.tail else kept) ++ [job.id]

/-- Issue a job, or hold it as long as there is no session. -/
def dispatch (dispatcher : Dispatcher) (job : Job) : Dispatcher × Option Order :=
  match dispatcher.session with
  | none => ({ dispatcher with current := some job }, none)
  | some session =>
      let epoch := if job.clean then dispatcher.epoch + 1 else dispatcher.epoch
      let work : Work :=
        { job, source := .computed session.extranonce1 session.next,
          target := dispatcher.shareTarget job }
      ({ dispatcher with
          session := some { session with next := session.next.next }
          current := some job
          recent := remember dispatcher.recent job
          epoch },
        some (.assign work epoch))

/-- Begin a session; the second extranonces start at zero. The job at hand is issued again. -/
def subscribe (dispatcher : Dispatcher) (extranonce1 : Bytes) (size : Nat) :
    Except Extranonce2.Fault (Dispatcher × Option Order) :=
  match Extranonce2.make 0 size with
  | .error fault => .error fault
  | .ok next =>
      let dispatcher := { dispatcher with session := some { extranonce1, next } }
      match dispatcher.current with
      | none => .ok (dispatcher, none)
      | some job => .ok (dispatcher.dispatch { job with clean := true })

/-- Whether the counter of epochs is at its end. -/
def isInLastEpoch (dispatcher : Dispatcher) : Bool :=
  dispatcher.epoch + 1 == 0

/-- Issue or hold a job. In the last epoch there is none left for a clean job. -/
def dispatch? (dispatcher : Dispatcher) (job : Job) : Option (Dispatcher × Option Order) :=
  if dispatcher.session.isSome && job.clean && dispatcher.isInLastEpoch then none
  else some (dispatcher.dispatch job)

/-- Begin a session, unless it fails on the job at hand. -/
def subscribe? (dispatcher : Dispatcher) (extranonce1 : Bytes) (size : Nat) :
    Option (Except Extranonce2.Fault (Dispatcher × Option Order)) :=
  match dispatcher.subscribe extranonce1 size with
  | .error fault => some (.error fault)
  | .ok next =>
      if dispatcher.current.isSome && dispatcher.isInLastEpoch then none else some (.ok next)

/-- Set the difficulty of shares for jobs to come. -/
def setDifficulty (dispatcher : Dispatcher) (difficulty : PoolDifficulty) : Dispatcher :=
  { dispatcher with difficulty := some difficulty }

/-- Whether shares of a job are still wanted. -/
def isCurrent (dispatcher : Dispatcher) (jobId : String) : Bool :=
  dispatcher.recent.contains jobId

/-- Forget the session and stop all workers. Nobody needs the next epoch here, so the counter may
come round. -/
def idle (dispatcher : Dispatcher) : Dispatcher × Option Order :=
  ({ dispatcher with
      session := none
      current := none
      recent := []
      epoch := dispatcher.epoch + 1 },
    some .idle)

/-! ## Reports -/

/-- A job is held. -/
def holdingRecord (job : Job) : LogRecord :=
  { severity := .debug, reporter := .dispatcher, message := "Holding job until subscribed",
    fields := [("job_id", job.id)] }

/-- Work has been sent to so many workers. -/
def dispatchedRecord (work : Work) (workers : Nat) : LogRecord :=
  { severity := .debug, reporter := .dispatcher, message := "Dispatched job",
    fields :=
      [("job_id", work.job.id), ("clean", toString work.job.clean),
        ("extranonce2", (work.extranonce2?.map Extranonce2.display).getD ""),
        ("target", work.target.display), ("workers", toString workers)] }

end Dispatcher

end StratumMiner
