import StratumMiner.Duration

/-!
# Counting shares and hashes

Counters are words of 64 bits and wrap around. The times that the pool took to answer are kept in a
window of the latest sixty-four, whose mean is reported; the mean fails only when the sum of the
window is no duration.

The parts of a miner share the statistics. They take a lock for the window, and a failure behind the
lock breaks it for good.
-/

namespace StratumMiner

/-- What the miner has counted since it started. -/
structure Statistics where
  submitted : UInt64 := 0
  accepted : UInt64 := 0
  rejected : UInt64 := 0
  stale : UInt64 := 0
  hashes : UInt64 := 0
  /-- The latest answer times, oldest first. -/
  latencies : List Duration := []
  deriving Repr, DecidableEq

namespace Statistics

/-- How many answer times are kept. -/
def windowLength : Nat := 64

/-- Nothing has been counted yet. -/
def empty : Statistics := {}

/-- An answer time, in place of the oldest one when the window is full. -/
def addLatency (statistics : Statistics) (latency : Duration) : Statistics :=
  let kept :=
    if statistics.latencies.length = windowLength then statistics.latencies.tail
    else statistics.latencies
  { statistics with latencies := kept ++ [latency] }

/-- A share was handed in. -/
def countSubmitted (statistics : Statistics) : Statistics :=
  { statistics with submitted := statistics.submitted + 1 }

/-- The pool accepted a share. -/
def countAccepted (statistics : Statistics) (latency : Duration) : Statistics :=
  { statistics with accepted := statistics.accepted + 1 }.addLatency latency

/-- The pool rejected a share. -/
def countRejected (statistics : Statistics) (latency : Duration) : Statistics :=
  { statistics with rejected := statistics.rejected + 1 }.addLatency latency

/-- A share was not handed in because its job is over. -/
def countStale (statistics : Statistics) : Statistics :=
  { statistics with stale := statistics.stale + 1 }

/-- Headers were hashed. -/
def countHashes (statistics : Statistics) (count : UInt64) : Statistics :=
  { statistics with hashes := statistics.hashes + count }

/-- The mean of the answer times. -/
inductive Average where
  /-- There are none. -/
  | none
  | mean (duration : Duration)
  /-- Their sum is no duration. -/
  | overflow
  deriving Repr, DecidableEq

/-- The mean of the answer times in the window, rounded down. -/
def average (statistics : Statistics) : Average :=
  if statistics.latencies.isEmpty then .none
  else
    match Duration.sum? statistics.latencies with
    | some total => .mean (total.share statistics.latencies.length)
    | Option.none => .overflow

end Statistics

/-- What is read off the statistics for a report. -/
structure Snapshot where
  submitted : UInt64
  accepted : UInt64
  rejected : UInt64
  stale : UInt64
  hashes : UInt64
  /-- The mean of the answer times, if there are any. -/
  averageLatency : Option Duration
  deriving Repr, DecidableEq

/-- Statistics that the parts of a miner share. -/
structure SharedStatistics where
  statistics : Statistics := Statistics.empty
  /-- Whether somebody has failed behind the lock of the window. Then all who take it fail. -/
  broken : Bool := false
  deriving Repr, DecidableEq

namespace SharedStatistics

/-- What a part of a miner wants of the statistics. -/
inductive Call where
  | submitted
  | accepted (latency : Duration)
  | rejected (latency : Duration)
  | stale
  | hashes (count : UInt64)
  | average
  | snapshot
  deriving Repr, DecidableEq

/-- How a call ends. -/
inductive Reply where
  | done
  | average (mean : Option Duration)
  | snapshot (snapshot : Snapshot)
  | failed
  deriving Repr, DecidableEq

/-- Put an answer time into the window, behind the lock. -/
def record (shared : SharedStatistics) (latency : Duration) : SharedStatistics × Reply :=
  if shared.broken then (shared, .failed)
  else ({ shared with statistics := shared.statistics.addLatency latency }, .done)

/-- Work out the mean of the window, behind the lock. -/
def average (shared : SharedStatistics) : SharedStatistics × Reply :=
  if shared.broken then (shared, .failed)
  else
    match shared.statistics.average with
    | .none => (shared, .average none)
    | .mean mean => (shared, .average (some mean))
    | .overflow => ({ shared with broken := true }, .failed)

/-- Read all counters, and then the mean. -/
def snapshot (shared : SharedStatistics) : SharedStatistics × Reply :=
  let statistics := shared.statistics
  match shared.average with
  | (shared, .average averageLatency) =>
      (shared, .snapshot
        { submitted := statistics.submitted, accepted := statistics.accepted
          rejected := statistics.rejected, stale := statistics.stale
          hashes := statistics.hashes, averageLatency })
  | (shared, reply) => (shared, reply)

/-- Serve a call. A share that the pool has answered is counted before the lock is taken. -/
def serve (shared : SharedStatistics) : Call → SharedStatistics × Reply
  | .submitted => ({ shared with statistics := shared.statistics.countSubmitted }, .done)
  | .accepted latency =>
      let statistics := { shared.statistics with accepted := shared.statistics.accepted + 1 }
      { shared with statistics }.record latency
  | .rejected latency =>
      let statistics := { shared.statistics with rejected := shared.statistics.rejected + 1 }
      { shared with statistics }.record latency
  | .stale => ({ shared with statistics := shared.statistics.countStale }, .done)
  | .hashes count => ({ shared with statistics := shared.statistics.countHashes count }, .done)
  | .average => shared.average
  | .snapshot => shared.snapshot

end SharedStatistics

end StratumMiner
