import StratumMiner.Mining.Dispatcher
import StratumMiner.Mining.Nonce
import StratumMiner.Pool.Event
import StratumMiner.Pool.Submission
import StratumMiner.Statistics

/-!
# Between the pool and the workers

The relay moves events from the pool to the dispatcher and shares from the workers to the pool. A
share of a job that is no longer current is not handed in but counted as stale. On an event for
which the dispatcher has no epoch left the relay fails.
-/

namespace StratumMiner

/-- A report of the relay. -/
inductive RelayNote where
  | unusableExtranonce (fault : Extranonce2.Fault)
  | authorized (username : String)
  | holding (job : Job)
  | difficultyChanged (difficulty : PoolDifficulty)
  | accepted (jobId : String) (nonce : UInt32) (latency : Duration)
  | rejected (jobId : String) (nonce : UInt32) (reason : String)
  | disconnected
  | stale (share : Share)
  | submitting (share : Share)
  | clientGone
  /-- Work has been sent to so many workers. -/
  | dispatched (work : Work) (workers : Nat)
  deriving Repr, DecidableEq

namespace RelayNote

/-- A report of the relay as a record. -/
def report (severity : Severity) (message : String) (fields : List (String × String)) :
    LogRecord :=
  { severity, reporter := .daemon, message, fields }

/-- The record of a report. -/
def record : RelayNote → LogRecord
  | .unusableExtranonce fault =>
      report .warn "Unusable extranonce from pool" [("error", fault.message)]
  | .authorized username => report .info "Authorized" [("user", username)]
  | .holding job => Dispatcher.holdingRecord job
  | .difficultyChanged difficulty =>
      report .info "Pool difficulty changed" [("difficulty", difficulty.display)]
  | .accepted jobId nonce latency =>
      report .info "Share accepted"
        [("job_id", jobId), ("nonce", displayNonce nonce),
          ("latency_ms", toString latency.milliseconds)]
  | .rejected jobId nonce reason =>
      report .warn "Share rejected"
        [("job_id", jobId), ("nonce", displayNonce nonce), ("reason", reason)]
  | .disconnected => report .warn "Pool disconnected, idling workers" []
  | .stale share =>
      report .debug "Dropping stale share"
        [("job_id", share.jobId), ("nonce", displayNonce share.nonce)]
  | .submitting share =>
      report .info "Submitting share"
        [("job_id", share.jobId), ("nonce", displayNonce share.nonce),
          ("difficulty", share.difficulty.display)]
  | .clientGone => report .debug "Pool client gone, share dropped" []
  | .dispatched work workers => Dispatcher.dispatchedRecord work workers

end RelayNote

/-- What the relay works on. -/
structure Relay where
  username : String
  dispatcher : Dispatcher
  statistics : Statistics
  deriving Repr, DecidableEq

namespace Relay

/-- Take new extranonces. -/
def takeSubscription (relay : Relay) (subscription : Subscription) :
    Relay × Option Order × List RelayNote :=
  match relay.dispatcher.subscribe subscription.extranonce1 subscription.size with
  | .ok (dispatcher, order) => ({ relay with dispatcher }, order, [])
  | .error fault => (relay, none, [.unusableExtranonce fault])

/-- Handle an event: the order that goes out to the workers, if there is one, and the reports. -/
def handleEvent (relay : Relay) : PoolEvent → Relay × Option Order × List RelayNote
  | .subscribed subscription | .extranonceChanged subscription =>
      relay.takeSubscription subscription
  | .authorized => (relay, none, [.authorized relay.username])
  | .newJob job =>
      let (dispatcher, order) := relay.dispatcher.dispatch job
      ({ relay with dispatcher }, order, if order.isSome then [] else [.holding job])
  | .difficultyChanged difficulty =>
      ({ relay with dispatcher := relay.dispatcher.setDifficulty difficulty }, none,
        [.difficultyChanged difficulty])
  | .shareAccepted jobId nonce latency =>
      ({ relay with statistics := relay.statistics.countAccepted latency }, none,
        [.accepted jobId nonce latency])
  | .shareRejected jobId nonce reason latency =>
      ({ relay with statistics := relay.statistics.countRejected latency }, none,
        [.rejected jobId nonce reason])
  | .disconnected =>
      let (dispatcher, order) := relay.dispatcher.idle
      ({ relay with dispatcher }, order, [.disconnected])

/-- Whether the dispatcher fails on an event. -/
def failsOn (relay : Relay) : PoolEvent → Bool
  | .subscribed subscription | .extranonceChanged subscription =>
      (relay.dispatcher.subscribe? subscription.extranonce1 subscription.size).isNone
  | .newJob job => (relay.dispatcher.dispatch? job).isNone
  | _ => false

/-- Handle an event, unless the dispatcher fails. -/
def handleEvent? (relay : Relay) (event : PoolEvent) :
    Option (Relay × Option Order × List RelayNote) :=
  if relay.failsOn event then none else some (relay.handleEvent event)

/-- What a relay leaves behind that has failed: the counters, and an epoch that has come round. -/
def broken (relay : Relay) : Relay :=
  { relay with dispatcher := Dispatcher.initial (relay.dispatcher.epoch + 1) }

/-- Handle a share: what goes to the pool, if anything does, and the report. -/
def handleShare (relay : Relay) (share : Share) : Relay × Option Submission × RelayNote :=
  if relay.dispatcher.isCurrent share.jobId then
    ({ relay with statistics := relay.statistics.countSubmitted },
      some (Submission.ofShare relay.username share), .submitting share)
  else ({ relay with statistics := relay.statistics.countStale }, none, .stale share)

end Relay

end StratumMiner
