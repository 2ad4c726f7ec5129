import StratumMiner.HashRate
import StratumMiner.Miner.System
import StratumMiner.Settings

/-!
# Running the miner

A rig is a miner together with all that it has put out, the lines for the pool and the records of
its log. It is run by one fixed choice of actions: what has arrived is dealt with before anything
is hashed, and events before shares. Hashing goes on in rounds, a batch of each worker to a round.

The rig also does what the miner does as a whole: it starts the parts, reports on them, and stops
them on a signal or when the conversation with the pool has ended.
-/

namespace StratumMiner

/-- A signal that ends the miner. -/
inductive Signal where
  | interrupt
  | terminate
  deriving Repr, DecidableEq

/-- The name of a signal. -/
def Signal.name : Signal → String
  | .interrupt => "SIGINT"
  | .terminate => "SIGTERM"

/-- A running miner and what it has put out. -/
structure Rig where
  miner : Miner
  now : Instant
  /-- The lines for the pool, without their newlines. -/
  lines : Array String
  log : Array LogRecord
  /-- The hashes and the time of the latest report. -/
  lastHashes : UInt64
  lastReport : Instant
  /-- The end of the miner, and the fault if there was one. -/
  outcome : Option (Option PoolFault)

namespace Rig

/-! ## Single actions -/

/-- A record of the miner as a whole. -/
def daemonRecord (severity : Severity) (message : String) (fields : List (String × String)) :
    LogRecord :=
  { severity, reporter := .daemon, message, fields }

/-- Put a record into the log. -/
def write (rig : Rig) (record : LogRecord) : Rig :=
  { rig with log := rig.log.push record }

/-- Put out what has become visible. -/
def putOut (rig : Rig) (outcomes : List Miner.Outcome) : Rig :=
  outcomes.foldl (fun rig outcome =>
    match outcome with
    | .line text => { rig with lines := rig.lines.push text }
    | .record record => rig.write record) rig

/-- The rig after an action, if the action can happen. -/
def act? (rig : Rig) (action : Miner.Action) : Option Rig :=
  match rig.miner.act? action with
  | none => none
  | some (miner, outcomes) => some ({ rig with miner }.putOut outcomes)

/-- The first of several actions that can happen. -/
def actFirst? (rig : Rig) : List Miner.Action → Option Rig
  | [] => none
  | action :: others =>
      match rig.act? action with
      | some rig => some rig
      | none => rig.actFirst? others

/-- Actions out of a choice, at most `fuel` of them, until none can happen. -/
def actWhile (choice : Rig → List Miner.Action) : (fuel : Nat) → Rig → Rig
  | 0, rig => rig
  | fuel + 1, rig =>
      match rig.actFirst? (choice rig) with
      | some rig => actWhile choice fuel rig
      | none => rig

/-! ## Rounds -/

/-- Whether a worker is about to hash a batch. -/
def isHashing (worker : Worker) : Bool :=
  match worker.stage with
  | .searching _ _ _ .hashing => true
  | _ => false

/-- Whether a worker is about to hash a batch and nothing will keep it from hashing the next. -/
def isUndisturbed (epoch : UInt64) (worker : Worker) : Bool :=
  match worker.stage with
  | .searching search _ _ .hashing => search.epoch == epoch && worker.inbox.orders.isEmpty
  | _ => false

/-- Whether a worker has something to do other than to hash batch after batch. -/
def isBusy (running : Bool) (epoch : UInt64) (worker : Worker) : Bool :=
  !worker.hasExited && (!running || !(worker.isResting || isUndisturbed epoch worker))

/-- The steps of the workers that satisfy a condition. -/
def workerActions (rig : Rig) (wanted : Worker → Bool) : List Miner.Action :=
  rig.miner.workers.zipIdx.filterMap fun (worker, index) =>
    if wanted worker then some (.workerSteps index) else none

/-- The steps of workers that do not just hash. -/
def busyWorkers (rig : Rig) : List Miner.Action :=
  rig.workerActions (isBusy rig.miner.running rig.miner.relay.dispatcher.epoch)

/-- All actions other than to hash on, in the order in which they are tried. -/
def calmActions (rig : Rig) : List Miner.Action :=
  [.clientActs, .relayDelivers, .relayHandsOver, .relayTakesEvent, .clientReads rig.now,
    .clientTakesSubmission rig.now, .relayStops, .relayTakesShare] ++ rig.busyWorkers

/-- More actions than a rig ever takes without being told something. -/
def manyActions : Nat := 0x4000000000000000

/-- Deal with all that has arrived. -/
def settle (rig : Rig) : Rig :=
  actWhile calmActions manyActions rig

/-- One batch of each worker that is about to hash. -/
def hashRound (rig : Rig) : Rig :=
  (rig.workerActions isHashing).foldl (fun rig action => (rig.act? action).getD rig) rig

/-- Rounds of hashing, at most `fuel` of them, with all that follows from each, until the rig
satisfies a condition. -/
def runUntil (done : Rig → Bool) : (fuel : Nat) → Rig → Rig
  | 0, rig => rig
  | fuel + 1, rig => if done rig then rig else runUntil done fuel rig.hashRound.settle

/-- Rounds of hashing while nobody else does anything. The shares found wait for the relay. -/
def runAhead : (rounds : Nat) → Rig → Rig
  | 0, rig => rig
  | rounds + 1, rig => runAhead rounds (actWhile busyWorkers manyActions rig.hashRound)

/-! ## The life of a rig -/

/-- A worker for each of the ranges, and what is reported on them. -/
def startWorkers (hasher : Hasher) (rollNtime : Bool) (ranges : List NonceRange) :
    List Worker × List LogRecord :=
  let started := ranges.zipIdx.map fun (range, index) =>
    let name := "cpu" ++ toString index
    let (worker, effects) := Worker.start { name, range, hasher, rollNtime }
    let reports := effects.filterMap fun effect =>
      match effect with
      | .note note => some (note.record name)
      | _ => none
    let record :=
      daemonRecord .debug "Worker started" [("thread", name), ("range", range.display)]
    (worker, reports ++ [record])
  (started.map Prod.fst, started.flatMap Prod.snd)

/-- Stop all parts and report the end. -/
def stop (rig : Rig) (fault : Option PoolFault) : Rig :=
  let rig := { rig with miner := { rig.miner with running := false } }
  let rig := ((rig.act? (.clientStops rig.now)).getD rig).settle
  let statistics := rig.miner.relay.statistics
  { rig with outcome := some fault }.write
    (daemonRecord .info "Exiting."
      [("accepted", toString statistics.accepted.toNat),
        ("rejected", toString statistics.rejected.toNat),
        ("stale", toString statistics.stale.toNat)])

/-- Notice the end of the conversation with the pool. -/
def notice (rig : Rig) : Rig :=
  if rig.outcome.isSome then rig
  else
    match rig.miner.client.outcome? with
    | some (some fault) =>
        (rig.write
          (daemonRecord .error "Pool connection failed." [("error", fault.message)])).stop
          (some fault)
    | some none => rig.stop none
    | none => rig

/-- Deal with all that has arrived, and with the end of the conversation if it has come. -/
def proceed (rig : Rig) : Rig :=
  rig.settle.notice

/-- The conversation with the pool while there is no connection yet. -/
def conversation (rig : Rig) : Conversation :=
  { client := rig.miner.client, decoder := rig.miner.link.decoder, now := rig.now, heard := true,
    waiting := [] }

/-- What becomes visible of the miner when something does of its conversation. -/
def visible? : Conversation.Outcome → Option Miner.Outcome
  | .line text => some (.line text)
  | .record record => some (.record record)
  | .event _ => none

/-- Go on with the conversation, of which no event has come yet. -/
def resume (rig : Rig) (next : Conversation × List Conversation.Outcome) : Rig :=
  let (conversation, outcomes) := next
  ({ rig with miner := { rig.miner with client := conversation.client } }.putOut
    (outcomes.filterMap visible?)).proceed

/-- The rig at its start. It begins to connect to its pool. -/
def start (settings : Settings) (available : Level) (threads : Nat) (now : Instant) : Rig :=
  let hasher : Hasher := { level := settings.hashing.level.getD available, available }
  let (workers, workerRecords) :=
    startWorkers hasher settings.hashing.rollNtime (NonceRange.partition threads)
  let conversation := Conversation.unconnected settings.pool
  let miner : Miner :=
    { running := true
      client := conversation.client
      link := { decoder := conversation.decoder, closed := false, finished := false }
      outbox := []
      events := []
      submissions := []
      hasMined := false
      relay := { username := settings.pool.username, dispatcher := Dispatcher.initial 0,
                 statistics := Statistics.empty }
      relayStage := .listening
      workers
      shares := [] }
  let rig : Rig :=
    { miner, now, lines := #[], log := #[], lastHashes := 0, lastReport := now, outcome := none }
  let rig := rig.write
    (daemonRecord .info "CPU miner starting"
      [("pool", settings.pool.url), ("user", settings.pool.username),
        ("threads", toString threads), ("level", hasher.level.name)])
  let rig := workerRecords.foldl write rig
  let rig := rig.write
    (daemonRecord .debug "Job dispatcher ready" [("workers", toString workers.length)])
  let rig := rig.write (daemonRecord .info "Started." [])
  let rig := rig.write
    (daemonRecord .info "For debugging, set RUST_LOG=cpuminer=debug or trace." [])
  rig.resume rig.conversation.dial

/-- The connection to the pool comes about, unless there is an obstacle. -/
def reach (rig : Rig) (obstacle : Option Obstacle) : Rig :=
  if rig.outcome.isSome then rig
  else rig.resume (rig.conversation.reach obstacle)

/-- Bytes arrive from the pool. -/
def receive (rig : Rig) (bytes : Bytes) : Rig :=
  if rig.outcome.isSome then rig
  else
    let link := rig.miner.link
    let link := { link with decoder := link.decoder.append bytes }
    { rig with miner := { rig.miner with link } }.proceed

/-- The pool closes the connection. -/
def close (rig : Rig) : Rig :=
  if rig.outcome.isSome then rig
  else
    let link := { rig.miner.link with closed := true }
    { rig with miner := { rig.miner with link } }.proceed

/-- A signal ends the miner. -/
def signal (rig : Rig) (signal : Signal) : Rig :=
  if rig.outcome.isSome then rig
  else (rig.write (daemonRecord .info ("Received " ++ signal.name ++ ".") [])).stop none

/-- Report on shares and hashes since the latest report. -/
def report (rig : Rig) : Rig :=
  let statistics := rig.miner.relay.statistics
  let hashes := UInt64.ofNat (statistics.hashes.toNat - rig.lastHashes.toNat)
  let rate := HashRate.ofHashes hashes (Duration.clamp (rig.now - rig.lastReport))
  let latency :=
    match statistics.average with
    | .mean mean => mean.milliseconds
    | _ => 0
  { rig with lastHashes := statistics.hashes, lastReport := rig.now }.write
    (daemonRecord .info "Mining stats"
      [("hashrate", rate.display), ("submitted", toString statistics.submitted.toNat),
        ("accepted", toString statistics.accepted.toNat),
        ("rejected", toString statistics.rejected.toNat),
        ("stale", toString statistics.stale.toNat), ("latency_ms", toString latency)])

/-- How often a rig reports, in seconds. -/
def reportInterval : Nat := 30

/-- It is later: an answer of the pool may be overdue, and so may a report. -/
def pass (rig : Rig) (now : Instant) : Rig :=
  let rig := { rig with now }
  if rig.outcome.isSome then rig
  else
    let rig := ((rig.act? (.clientWakes now)).getD rig).proceed
    if rig.lastReport + inSeconds reportInterval ≤ now then rig.report else rig

/-- Whether any worker is about to hash. -/
def isAtWork (rig : Rig) : Bool :=
  rig.outcome.isNone && rig.miner.workers.any isHashing

/-- A round of hashing and all that follows from it. -/
def work (rig : Rig) : Rig :=
  if rig.isAtWork then rig.hashRound.proceed else rig

/-- The rig when everything that it has put out is taken away. -/
def emptied (rig : Rig) : Rig :=
  { rig with lines := #[], log := #[] }

end Rig

end StratumMiner
