import Mathlib
import StratumMiner.Miner.Relay
import StratumMiner.Proofs.Mining.Attempt
import StratumMiner.Proofs.Mining.Desk

/-!
# Runs of the relay

Events and shares reach the relay in any order, so a run of the relay is a list of both.  The orders
that it has given tell which work has been superseded; what becomes of a share of such work depends
on the id of its job alone.  The share is dropped and counted as stale, unless a job with the same
id is among the latest that have been dispatched since.  That happens when a pool changes the first
extranonce and does not send another job: the job at hand is dispatched again, and shares of the
work under the old extranonce go to the pool.
-/

namespace StratumMiner

/-- The share belongs to an attempt at the work that hit. -/
def Work.Yields (work : Work) (share : Share) : Prop :=
  ∃ attempt, work.hits attempt = true ∧ share = work.share attempt

/-- What an event asks of the dispatcher, if it does. -/
def PoolEvent.call? : PoolEvent → Option DispatcherCall
  | .subscribed subscription | .extranonceChanged subscription =>
      some (.subscribe subscription.extranonce1 subscription.size)
  | .newJob job => some (.dispatch job)
  | .difficultyChanged difficulty => some (.setDifficulty difficulty)
  | .disconnected => some .idle
  | .authorized | .shareAccepted _ _ _ | .shareRejected _ _ _ _ => none

/-- What reaches the relay. -/
inductive RelayInput where
  | event (event : PoolEvent)
  | share (share : Share)
  deriving Repr, DecidableEq

/-- The relay with what it has put out. -/
structure Traffic where
  relay : Relay
  /-- The orders that it has given, oldest first. -/
  orders : List Order
  /-- What it has handed in, oldest first. -/
  submissions : List Submission
  deriving Repr, DecidableEq

namespace Traffic

/-- A relay that nothing has reached. -/
def start (epoch : UInt64) (username : String) : Traffic :=
  { relay := { username, dispatcher := Dispatcher.initial epoch, statistics := Statistics.empty }
    orders := [], submissions := [] }

/-- The traffic behind an input. -/
def take (traffic : Traffic) : RelayInput → Traffic
  | .event event =>
      let (relay, order, _) := traffic.relay.handleEvent event
      { traffic with relay, orders := traffic.orders ++ order.toList }
  | .share share =>
      let (relay, submission, _) := traffic.relay.handleShare share
      { traffic with relay, submissions := traffic.submissions ++ submission.toList }

/-- The traffic behind a list of inputs. -/
def run (epoch : UInt64) (username : String) (inputs : List RelayInput) : Traffic :=
  inputs.foldl take (start epoch username)

end Traffic

/-- The dispatcher behind an event, and the order. -/
def Dispatcher.hear (dispatcher : Dispatcher) (event : PoolEvent) : Dispatcher × Option Order :=
  match event.call? with
  | some call => dispatcher.serve call
  | none => (dispatcher, none)

/-- Whatever the relay does with an event, the dispatcher only serves calls. -/
theorem Relay.handleEvent_hear (relay : Relay) (event : PoolEvent) :
    (relay.handleEvent event).1.dispatcher = (relay.dispatcher.hear event).1 ∧
      (relay.handleEvent event).2.1 = (relay.dispatcher.hear event).2 := by
  cases event with
  | subscribed subscription | extranonceChanged subscription =>
      simp only [handleEvent, takeSubscription, Dispatcher.hear, PoolEvent.call?, Dispatcher.serve]
      cases relay.dispatcher.subscribe subscription.extranonce1 subscription.size with
      | ok next => exact ⟨rfl, rfl⟩
      | error fault => exact ⟨rfl, rfl⟩
  | newJob job | difficultyChanged difficulty | disconnected => exact ⟨rfl, rfl⟩
  | authorized | shareAccepted | shareRejected => exact ⟨rfl, rfl⟩

/-- The relay fails on an event just when the dispatcher fails on its call. -/
theorem Relay.failsOn_iff (relay : Relay) (event : PoolEvent) :
    relay.failsOn event = true ↔
      ∃ call, event.call? = some call ∧ relay.dispatcher.serve? call = none := by
  cases event with
  | subscribed subscription | extranonceChanged subscription =>
      simp only [failsOn, PoolEvent.call?, Option.some.injEq, exists_eq_left', Dispatcher.serve?]
      cases relay.dispatcher.subscribe? subscription.extranonce1 subscription.size with
      | none => simp
      | some result => cases result <;> simp
  | newJob job => simp [failsOn, PoolEvent.call?, Dispatcher.serve?]
  | difficultyChanged | disconnected => simp [failsOn, PoolEvent.call?, Dispatcher.serve?]
  | authorized | shareAccepted | shareRejected => simp [failsOn, PoolEvent.call?]

theorem Relay.isInLastEpoch_of_failsOn {relay : Relay} {event : PoolEvent}
    (fails : relay.failsOn event = true) : relay.dispatcher.isInLastEpoch = true := by
  obtain ⟨call, -, none⟩ := (relay.failsOn_iff event).mp fails
  rw [Dispatcher.serve?_eq] at none
  split at none
  · next late => exact late.2.2
  · exact absurd none (by simp)

/-- A share does not change the dispatcher. -/
theorem Relay.dispatcher_handleShare (relay : Relay) (share : Share) :
    (relay.handleShare share).1.dispatcher = relay.dispatcher := by
  unfold handleShare
  split <;> rfl

namespace Traffic

variable {epoch : UInt64} {username : String} {traffic : Traffic}

theorem take_ordered (ordered : traffic.relay.dispatcher.Ordered epoch traffic.orders)
    (input : RelayInput) :
    (traffic.take input).relay.dispatcher.Ordered epoch (traffic.take input).orders := by
  cases input with
  | share share =>
      simp only [take, traffic.relay.dispatcher_handleShare share]
      exact ordered
  | event event =>
      obtain ⟨dispatcher, order⟩ := traffic.relay.handleEvent_hear event
      simp only [take, dispatcher, order, Dispatcher.hear]
      cases event.call? with
      | none => simpa using ordered
      | some call => exact ordered.serve (traffic.relay.dispatcher.serve_served call)

/-- The orders of every run tell which jobs are wanted. -/
theorem run_ordered (epoch : UInt64) (username : String) (inputs : List RelayInput) :
    (run epoch username inputs).relay.dispatcher.Ordered epoch
      (run epoch username inputs).orders := by
  induction inputs using List.reverseRecOn with
  | nil => exact Dispatcher.ordered_initial epoch
  | append_singleton inputs input ih =>
      rw [run, List.foldl_append]
      exact take_ordered ih input

/-- What becomes of a share: it is dropped and counted, or it goes to the pool. -/
theorem take_share (traffic : Traffic) (share : Share) :
    (share.jobId ∉ traffic.relay.dispatcher.recent →
      (traffic.take (.share share)).submissions = traffic.submissions ∧
        (traffic.take (.share share)).relay.statistics = traffic.relay.statistics.countStale) ∧
      (share.jobId ∈ traffic.relay.dispatcher.recent →
        (traffic.take (.share share)).submissions =
            traffic.submissions ++ [Submission.ofShare traffic.relay.username share] ∧
          (traffic.take (.share share)).relay.statistics =
            traffic.relay.statistics.countSubmitted) := by
  have current : traffic.relay.dispatcher.isCurrent share.jobId = true ↔
      share.jobId ∈ traffic.relay.dispatcher.recent := List.contains_iff_mem
  simp only [take, Relay.handleShare]
  refine ⟨fun unwanted => ?_, fun wanted => ?_⟩
  · rw [if_neg (current.not.mpr unwanted)]
    exact ⟨List.append_nil _, rfl⟩
  · rw [if_pos (current.mpr wanted)]
    exact ⟨rfl, rfl⟩

/-- A share of work that has been superseded goes to the pool just when a job with the id of its job
is among the latest that have been dispatched since; otherwise it is dropped and counted. -/
theorem superseded_share_stale (epoch : UInt64) (username : String) (inputs : List RelayInput)
    {earlier later : List Order} {work : Work} {workEpoch : UInt64}
    (issued : (run epoch username inputs).orders = earlier ++ .assign work workEpoch :: later)
    (superseded : later.any Order.movesEpoch = true) {share : Share} (mined : work.Yields share) :
    let before := run epoch username inputs
    let behind := before.take (.share share)
    (work.job.id ∉ Order.latestIds later →
      behind.submissions = before.submissions ∧
        behind.relay.statistics = before.relay.statistics.countStale) ∧
      (work.job.id ∈ Order.latestIds later →
        behind.submissions =
            before.submissions ++ [Submission.ofShare before.relay.username share] ∧
          behind.relay.statistics = before.relay.statistics.countSubmitted) := by
  obtain ⟨attempt, -, rfl⟩ := mined
  have ordered := run_ordered epoch username inputs
  have recent : (run epoch username inputs).relay.dispatcher.recent = Order.latestIds later := by
    rw [ordered.recent, issued, List.append_cons]
    exact Order.latestIds_append superseded _
  rw [← recent]
  exact take_share (run epoch username inputs) (work.share attempt)

/-! ## Two shares

A job with a target that almost every digest meets becomes work in a session.  The work is
superseded once by another job and once by another session.
-/

def sampleJob (id : String) : Job :=
  { id, prevHash := .replicate 32 0, coinbase1 := [], coinbase2 := [], branches := []
    version := 0, nbits := 0x2100ffff, ntime := 0x5f000000, clean := true }

def sampleSession : Subscription :=
  ⟨[0x41, 0x28, 0x06, 0x4f], 4, by decide, by decide⟩

/-- The work for the first job of the session. -/
def sampleWork : Work :=
  { job := sampleJob "a"
    source := .computed sampleSession.extranonce1 ⟨0, 4, by decide, by decide⟩
    target := Target.decode 0x2100ffff }

/-- The first nonce hits. -/
theorem yields_sampleWork : sampleWork.Yields (sampleWork.share ⟨0x5f000000, 0⟩) :=
  ⟨⟨0x5f000000, 0⟩, by decide +kernel, rfl⟩

/-- Another job comes behind the first. -/
def otherJob : List RelayInput :=
  [.event (.subscribed sampleSession), .event (.newJob (sampleJob "a")),
    .event (.newJob (sampleJob "b"))]

/-- Other extranonces come behind the first job. -/
def otherSession : List RelayInput :=
  [.event (.subscribed sampleSession), .event (.newJob (sampleJob "a")),
    .event (.extranonceChanged ⟨[0, 0, 0, 2], 4, by decide, by decide⟩)]

/-- Behind the other job, a share of the work is dropped. -/
theorem superseded_share_stale_sample :
    ∃ share, sampleWork.Yields share ∧
      let traffic := run 0 "worker" otherJob
      (traffic.take (.share share)).submissions = traffic.submissions ∧
        (traffic.take (.share share)).relay.statistics =
          traffic.relay.statistics.countStale := by
  have issued : (run 0 "worker" otherJob).orders =
      [] ++ .assign sampleWork 1 :: (run 0 "worker" otherJob).orders.tail := by decide +kernel
  have superseded : (run 0 "worker" otherJob).orders.tail.any Order.movesEpoch = true := by
    decide +kernel
  refine ⟨_, yields_sampleWork, ?_⟩
  exact (superseded_share_stale 0 "worker" otherJob issued superseded yields_sampleWork).1
    (by decide +kernel)

/-- Behind the other session, a share of the work goes to the pool, although the epoch has moved. -/
theorem superseded_share_submitted :
    ∃ share, sampleWork.Yields share ∧
      let traffic := run 0 "worker" otherSession
      traffic.orders.head? = some (.assign sampleWork 1) ∧
        traffic.relay.dispatcher.epoch = 2 ∧
        (traffic.take (.share share)).submissions = [Submission.ofShare "worker" share] ∧
        (traffic.take (.share share)).relay.statistics.stale = 0 := by
  refine ⟨_, yields_sampleWork, ?_⟩
  decide +kernel

end Traffic

end StratumMiner
