import StratumMiner.Miner.Relay
import StratumMiner.Mining.Worker
import StratumMiner.Pool.Conversation

/-!
# The whole miner

The pool client, the relay and the workers run side by side. They are joined by queues: events from
the client to the relay, submissions from the relay to the client, shares from the workers to the
relay, all of bounded length, and an inbox for each worker. The epoch and the mark that the miner
runs are read by all workers and written by one side only.

The state of the miner holds all of this, and an action is one step of one of the parts. Which
action comes next is left open: an action that cannot happen gives nothing, and a run of the miner
is any sequence of actions that can.
-/

namespace StratumMiner

/-- The client's end of the connection. -/
structure Link where
  decoder : LineDecoder
  /-- Whether the pool has closed the connection. -/
  closed : Bool
  /-- Whether the client has seen that the pool has closed it. -/
  finished : Bool
  deriving Repr, DecidableEq

/-- What the relay is doing. -/
inductive RelayStage where
  /-- Waiting for an event or a share. -/
  | listening
  /-- Sending an order to the workers from number `next` on; `delivered` have got it. Then the relay
  listens again, or ends. -/
  | delivering (order : Order) (next delivered : Nat) (last : Bool)
  /-- Waiting for room to hand over a submission. -/
  | handing (submission : Submission)
  | gone
  deriving Repr, DecidableEq

/-- The state of the miner. -/
structure Miner where
  /-- Cleared once, to stop all parts. -/
  running : Bool
  client : Client
  link : Link
  /-- What the client has yet to do before it looks for anything new. -/
  outbox : List Client.Effect
  events : List PoolEvent
  submissions : List Submission
  /-- Whether the client has begun to mine. It takes the queue of submissions along then, and drops
  it when it stops mining, before it tells the relay. -/
  hasMined : Bool
  relay : Relay
  relayStage : RelayStage
  workers : List Worker
  shares : List Share
  deriving Repr

namespace Miner

/-- The room in the queue of events. -/
def eventRoom : Nat := 100

/-- The room in the queue of submissions. -/
def submissionRoom : Nat := 100

/-- The room in the queue of shares. -/
def shareRoom : Nat := 256

/-- What becomes visible of the miner. -/
inductive Outcome where
  /-- A line for the pool, without its newline. -/
  | line (text : String)
  | record (record : LogRecord)
  deriving Repr, DecidableEq

/-- A step of one part. -/
inductive Action where
  /-- The client does the first thing that it has yet to do. -/
  | clientActs
  /-- The client takes a line, or sees that the connection is closed. -/
  | clientReads (now : Instant)
  | clientTakesSubmission (now : Instant)
  | clientWakes (now : Instant)
  | clientStops (now : Instant)
  | relayTakesEvent
  | relayTakesShare
  | relayDelivers
  | relayHandsOver
  | relayStops
  | workerSteps (index : Nat)
  deriving Repr, DecidableEq

/-! ## The client -/

/-- The client goes on to its next state and has these things to do. -/
def clientGoes (miner : Miner) (next : Client × List Client.Effect) : Miner :=
  { miner with
    client := next.1
    outbox := next.2
    hasMined := miner.hasMined || next.1.takesShares }

/-- An event for a relay that is gone. -/
def emitUnheard (miner : Miner) (others : List Client.Effect) : Miner :=
  match miner.client.outcome? with
  | some _ => { miner with outbox := others }
  | none => miner.clientGoes miner.client.unheard

/-- The client does the first thing that it has yet to do. An event waits for room in its queue. -/
def clientActs? (miner : Miner) : Option (Miner × List Outcome) :=
  match miner.outbox with
  | [] => none
  | .note note :: others => some ({ miner with outbox := others }, [.record note.record])
  | .write message :: others =>
      let line := message.line
      some ({ miner with outbox := others },
        [.record (ConnectionNote.sending line).record, .line line])
  | .emit event :: others =>
      if miner.relayStage = .gone then some (miner.emitUnheard others, [])
      else if miner.events.length < eventRoom then
        some ({ miner with events := miner.events ++ [event], outbox := others }, [])
      else none

/-- Whether the client is free to look for something new. -/
def clientIsFree (miner : Miner) : Bool :=
  miner.outbox.isEmpty &&
    match miner.client.phase with
    | .subscribing _ | .authorizing _ | .mining => true
    | .unconnected | .ended _ => false

/-- The records of lines that turned out too long. -/
def overlongRecords (before after : LineDecoder) : List Outcome :=
  List.replicate (after.overlong - before.overlong)
    (.record (ConnectionNote.lineTooLong after.maxLength).record)

/-- The client takes the next line, or sees that the connection is closed. -/
def clientReads? (now : Instant) (miner : Miner) : Option (Miner × List Outcome) :=
  let take := if miner.link.closed then LineDecoder.decodeEnd else LineDecoder.decode
  let (line?, decoder) := take miner.link.decoder
  let reports := overlongRecords miner.link.decoder decoder
  let miner := { miner with link := { miner.link with decoder } }
  match line? with
  | some line =>
      match Incoming.ofLine line with
      | none => some (miner, reports)
      | some incoming =>
          some (miner.clientGoes (miner.client.step now incoming.input),
            reports ++ [.record (ConnectionNote.received incoming.line).record])
  | none =>
      if miner.link.closed && !miner.link.finished then
        some ({ miner with link := { miner.link with finished := true } }.clientGoes
          (miner.client.step now .closed), reports)
      else if reports.isEmpty then none
      else some (miner, reports)

/-- The client takes a submission. -/
def clientTakesSubmission? (now : Instant) (miner : Miner) : Option (Miner × List Outcome) :=
  match miner.submissions with
  | submission :: submissions =>
      if miner.client.takesShares then
        some ({ miner with submissions }.clientGoes
          (miner.client.step now (.submit submission)), [])
      else none
  | [] => none

/-- The client stops because the miner does. -/
def clientStops? (now : Instant) (miner : Miner) : Option (Miner × List Outcome) :=
  if miner.running then none
  else
    match miner.client.phase with
    | .ended _ => none
    | .unconnected => some ({ miner with client := miner.client.withdraw }, [])
    | _ => some (miner.clientGoes (miner.client.step now .shutdown), [])

/-- Whether the client waits for an answer of the pool and has come to wait for room for an event in
the meantime. Its patience runs on. What it has to do behind an answer it does in any case. -/
def clientIsHeldUp (miner : Miner) : Bool :=
  match miner.client.phase, miner.outbox with
  | .subscribing _, [.emit _] | .authorizing _, [.emit _] =>
      miner.relayStage != .gone && eventRoom ≤ miner.events.length
  | _, _ => false

/-- Time has passed. A client that is held up gives its event up when its patience has ended. -/
def clientWakes? (now : Instant) (miner : Miner) : Option (Miner × List Outcome) :=
  if miner.clientIsFree || (miner.clientIsHeldUp && miner.client.due ≤ now) then
    some (miner.clientGoes (miner.client.step now .wake), [])
  else none

/-! ## The relay -/

/-- The relay goes on with an order, if there is one. -/
def relayGoes (miner : Miner) (order : Option Order) (last : Bool) : Miner :=
  { miner with
    relayStage :=
      match order with
      | some order => .delivering order 0 0 last
      | none => if last then .gone else .listening }

/-- The relay takes an event, and may fail on it. When no event can come any more, it stops the
workers and ends. -/
def relayTakesEvent? (miner : Miner) : Option (Miner × List Outcome) :=
  match miner.relayStage, miner.events with
  | .listening, event :: events =>
      match miner.relay.handleEvent? event with
      | some (relay, order, notes) =>
          some ({ miner with events, relay }.relayGoes order false,
            notes.map fun note => .record note.record)
      | none => some ({ miner with events, relay := miner.relay.broken, relayStage := .gone }, [])
  | .listening, [] =>
      if miner.outbox.isEmpty && miner.client.outcome?.isSome then
        let (dispatcher, order) := miner.relay.dispatcher.idle
        some ({ miner with relay := { miner.relay with dispatcher } }.relayGoes order true, [])
      else none
  | _, _ => none

/-- The relay takes a share. -/
def relayTakesShare? (miner : Miner) : Option (Miner × List Outcome) :=
  match miner.relayStage, miner.shares with
  | .listening, share :: shares =>
      let (relay, submission, note) := miner.relay.handleShare share
      let relayStage :=
        match submission with
        | some submission => .handing submission
        | none => .listening
      some ({ miner with shares, relay, relayStage }, [.record note.record])
  | _, _ => none

/-- The relay sends its order to the next worker. A worker that has exited gets nothing. -/
def relayDelivers? (miner : Miner) : Option (Miner × List Outcome) :=
  match miner.relayStage with
  | .delivering order next delivered last =>
      match miner.workers[next]? with
      | some worker =>
          if worker.hasExited then
            some ({ miner with relayStage := .delivering order (next + 1) delivered last }, [])
          else
            some
              ({ miner with
                  workers := miner.workers.set next (worker.tell order)
                  relayStage := .delivering order (next + 1) (delivered + 1) last }, [])
      | none =>
          let reports :=
            match order with
            | .assign work _ => [.record (RelayNote.dispatched work delivered).record]
            | _ => []
          some (miner.relayGoes none last, reports)
  | _ => none

/-- Whether nobody will take a submission any more. -/
def submissionsUnheard (miner : Miner) : Bool :=
  miner.client.outcome?.isSome && (miner.hasMined || miner.outbox.isEmpty)

/-- The relay hands over its submission as soon as there is room, or drops it if nobody will take
it. -/
def relayHandsOver? (miner : Miner) : Option (Miner × List Outcome) :=
  match miner.relayStage with
  | .handing submission =>
      if miner.submissionsUnheard then
        some ({ miner with relayStage := .listening }, [.record RelayNote.clientGone.record])
      else if miner.submissions.length < submissionRoom then
        some
          ({ miner with
              submissions := miner.submissions ++ [submission], relayStage := .listening }, [])
      else none
  | _ => none

/-- The relay ends because the miner stops, or because all workers have exited. -/
def relayStops? (miner : Miner) : Option (Miner × List Outcome) :=
  if miner.relayStage = .listening ∧
      (!miner.running || (miner.shares.isEmpty && miner.workers.all Worker.hasExited)) then
    some ({ miner with relayStage := .gone }, [])
  else none

/-! ## The workers -/

/-- Apply what a worker gives to the others. A share for a relay that is gone is lost. -/
def applyEffects (name : String) (miner : Miner) :
    List Worker.Effect → Miner × List Outcome
  | [] => (miner, [])
  | .count hashes :: rest =>
      let statistics := miner.relay.statistics.countHashes (UInt64.ofNat hashes)
      applyEffects name { miner with relay := { miner.relay with statistics } } rest
  | .send share :: rest =>
      if miner.relayStage = .gone then
        let (miner, outcomes) := applyEffects name miner rest
        (miner, .record (WorkerNote.shareDropped.record name) :: outcomes)
      else applyEffects name { miner with shares := miner.shares ++ [share] } rest
  | .note note :: rest =>
      let (miner, outcomes) := applyEffects name miner rest
      (miner, .record (note.record name) :: outcomes)

/-- A worker makes a step. Before it sends a share it waits for room. -/
def workerSteps? (miner : Miner) (index : Nat) : Option (Miner × List Outcome) :=
  match miner.workers[index]? with
  | none => none
  | some worker =>
      if worker.hasExited then none
      else if worker.nextShare?.isSome ∧ miner.relayStage ≠ .gone ∧
          shareRoom ≤ miner.shares.length then none
      else
        let (worker, effects) := worker.step miner.running miner.relay.dispatcher.epoch
        some (applyEffects worker.settings.name
          { miner with workers := miner.workers.set index worker } effects)

/-! ## Actions -/

/-- The state after an action and what becomes visible of it, if the action can happen. -/
def act? (miner : Miner) : Action → Option (Miner × List Outcome)
  | .clientActs => miner.clientActs?
  | .clientReads now => if miner.clientIsFree then miner.clientReads? now else none
  | .clientTakesSubmission now =>
      if miner.clientIsFree then miner.clientTakesSubmission? now else none
  | .clientWakes now => miner.clientWakes? now
  | .clientStops now => if miner.outbox.isEmpty then miner.clientStops? now else none
  | .relayTakesEvent => miner.relayTakesEvent?
  | .relayTakesShare => miner.relayTakesShare?
  | .relayDelivers => miner.relayDelivers?
  | .relayHandsOver => miner.relayHandsOver?
  | .relayStops => miner.relayStops?
  | .workerSteps index => miner.workerSteps? index

end Miner

end StratumMiner
