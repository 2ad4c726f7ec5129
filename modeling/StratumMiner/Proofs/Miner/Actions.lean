import Mathlib
import StratumMiner.Miner.System

/-!
# What the actions of a miner come to

Each action of a miner is told once, with what it needs and what it changes.  What the miner's
crew, its session and its books make of an action follows from this by cases, and no other proof
looks into an action.
-/

namespace StratumMiner

/-- No share has been counted. -/
structure Statistics.SameShares (before after : Statistics) : Prop where
  submitted : after.submitted = before.submitted
  accepted : after.accepted = before.accepted
  rejected : after.rejected = before.rejected
  stale : after.stale = before.stale

theorem Statistics.SameShares.refl (statistics : Statistics) : SameShares statistics statistics :=
  ⟨rfl, rfl, rfl, rfl⟩

namespace Miner

/-- The line that becomes visible. -/
def Outcome.line? : Outcome → Option String
  | .line text => some text
  | .record _ => none

/-- No line for the pool becomes visible. -/
def Silent (outcomes : List Outcome) : Prop :=
  outcomes.filterMap Outcome.line? = []

/-- What an action comes to: the miner behind it, and what becomes visible. -/
inductive Acted (before : Miner) : Action → Miner → List Outcome → Prop where
  -- The client does the first thing that it has yet to do.
  | noted {note : ClientNote} {others : List Client.Effect}
      (outbox : before.outbox = .note note :: others) :
      Acted before .clientActs { before with outbox := others } [.record note.record]
  | wrote {message : Message} {others : List Client.Effect}
      (outbox : before.outbox = .write message :: others) :
      Acted before .clientActs { before with outbox := others }
        [.record (ConnectionNote.sending message.line).record, .line message.line]
  | emitted {event : PoolEvent} {others : List Client.Effect}
      (outbox : before.outbox = .emit event :: others) (heard : before.relayStage ≠ .gone)
      (room : before.events.length < eventRoom) :
      Acted before .clientActs { before with events := before.events ++ [event], outbox := others }
        []
  | unheard {event : PoolEvent} {others : List Client.Effect}
      (outbox : before.outbox = .emit event :: others) (gone : before.relayStage = .gone)
      (ended : before.client.outcome? ≠ none) :
      Acted before .clientActs { before with outbox := others } []
  | hungUp {event : PoolEvent} {others : List Client.Effect}
      (outbox : before.outbox = .emit event :: others) (gone : before.relayStage = .gone)
      (going : before.client.outcome? = none) :
      Acted before .clientActs (before.clientGoes (before.client.finish (some .disconnected))) []
  -- The client looks for something new, or its patience ends.
  | skipped {now : Instant} {link : Link} {outcomes : List Outcome}
      (idle : before.outbox = []) (silent : Silent outcomes) :
      Acted before (.clientReads now) { before with link } outcomes
  | read {now : Instant} {link : Link} {text : String} {incoming : Incoming}
      {outcomes : List Outcome} (idle : before.outbox = [])
      (its : Incoming.ofLine text = some incoming) (silent : Silent outcomes) :
      Acted before (.clientReads now)
        ({ before with link }.clientGoes (before.client.step now incoming.input)) outcomes
  | closed {now : Instant} {link : Link} {outcomes : List Outcome} (idle : before.outbox = [])
      (silent : Silent outcomes) :
      Acted before (.clientReads now)
        ({ before with link }.clientGoes (before.client.step now .closed)) outcomes
  | took {now : Instant} {submission : Submission} {submissions : List Submission}
      (idle : before.outbox = []) (queue : before.submissions = submission :: submissions)
      (takes : before.client.takesShares = true) :
      Acted before (.clientTakesSubmission now)
        ({ before with submissions }.clientGoes (before.client.step now (.submit submission))) []
  | woke {now : Instant} (idle : before.outbox = []) :
      Acted before (.clientWakes now) (before.clientGoes (before.client.step now .wake)) []
  | gaveUp {now : Instant} {event : PoolEvent} (outbox : before.outbox = [.emit event])
      (going : before.client.outcome? = none) (unmined : before.client.takesShares = false) :
      Acted before (.clientWakes now) (before.clientGoes (before.client.finish (some .timeout))) []
  | withdrew {now : Instant} (idle : before.outbox = [])
      (unconnected : before.client.phase = .unconnected) :
      Acted before (.clientStops now) { before with client := before.client.withdraw } []
  | stopped {now : Instant} (idle : before.outbox = []) :
      Acted before (.clientStops now) (before.clientGoes (before.client.step now .shutdown)) []
  -- The relay takes an event, fails on it, or finds that none will come.
  | heard {event : PoolEvent} {events : List PoolEvent} {relay : Relay} {order : Option Order}
      {notes : List RelayNote} (listening : before.relayStage = .listening)
      (queue : before.events = event :: events)
      (handled : before.relay.handleEvent event = (relay, order, notes)) :
      Acted before .relayTakesEvent ({ before with events, relay }.relayGoes order false)
        (notes.map fun note => .record note.record)
  | failed {event : PoolEvent} {events : List PoolEvent}
      (listening : before.relayStage = .listening) (queue : before.events = event :: events)
      (fails : before.relay.failsOn event = true) :
      Acted before .relayTakesEvent
        { before with events, relay := before.relay.broken, relayStage := .gone } []
  | bereft (listening : before.relayStage = .listening) (queue : before.events = []) :
      Acted before .relayTakesEvent
        ({ before with
            relay := { before.relay with
              dispatcher := before.relay.dispatcher.idle.1 } }.relayGoes (some .idle) true) []
  -- The relay takes a share.
  | submitted {share : Share} {shares : List Share} (listening : before.relayStage = .listening)
      (queue : before.shares = share :: shares)
      (current : before.relay.dispatcher.isCurrent share.jobId = true) :
      Acted before .relayTakesShare
        { before with
          shares
          relay := { before.relay with statistics := before.relay.statistics.countSubmitted }
          relayStage := .handing (Submission.ofShare before.relay.username share) }
        [.record (RelayNote.submitting share).record]
  | dropped {share : Share} {shares : List Share} (listening : before.relayStage = .listening)
      (queue : before.shares = share :: shares)
      (stale : before.relay.dispatcher.isCurrent share.jobId = false) :
      Acted before .relayTakesShare
        { before with
          shares
          relay := { before.relay with statistics := before.relay.statistics.countStale }
          relayStage := .listening }
        [.record (RelayNote.stale share).record]
  -- The relay sends an order round.
  | passedOver {order : Order} {next delivered : Nat} {last : Bool} {worker : Worker}
      (delivering : before.relayStage = .delivering order next delivered last)
      (found : before.workers[next]? = some worker) (exited : worker.hasExited = true) :
      Acted before .relayDelivers
        { before with relayStage := .delivering order (next + 1) delivered last } []
  | delivered {order : Order} {next delivered : Nat} {last : Bool} {worker : Worker}
      (delivering : before.relayStage = .delivering order next delivered last)
      (found : before.workers[next]? = some worker) (awake : worker.hasExited = false) :
      Acted before .relayDelivers
        { before with
          workers := before.workers.set next (worker.tell order)
          relayStage := .delivering order (next + 1) (delivered + 1) last } []
  | wentRound {order : Order} {next delivered : Nat} {last : Bool} {outcomes : List Outcome}
      (delivering : before.relayStage = .delivering order next delivered last)
      (nobody : before.workers[next]? = none) (silent : Silent outcomes) :
      Acted before .relayDelivers (before.relayGoes none last) outcomes
  -- The relay hands over its submission, or leaves.
  | refused {submission : Submission} (handing : before.relayStage = .handing submission)
      (unheard : before.submissionsUnheard = true) :
      Acted before .relayHandsOver { before with relayStage := .listening }
        [.record RelayNote.clientGone.record]
  | queued {submission : Submission} (handing : before.relayStage = .handing submission)
      (room : before.submissions.length < submissionRoom) :
      Acted before .relayHandsOver
        { before with
          submissions := before.submissions ++ [submission], relayStage := .listening } []
  | left (listening : before.relayStage = .listening) :
      Acted before .relayStops { before with relayStage := .gone } []
  -- A worker makes a step, and gives shares and counts of hashes to the others.
  | worked {index : Nat} {worker : Worker} {statistics : Statistics} {shares : List Share}
      {outcomes : List Outcome} (found : before.workers[index]? = some worker)
      (counted : before.relay.statistics.SameShares statistics) (silent : Silent outcomes) :
      Acted before (.workerSteps index)
        { before with
          workers := before.workers.set index
            (worker.step before.running before.relay.dispatcher.epoch).1
          relay := { before.relay with statistics }
          shares } outcomes

variable {before after : Miner} {outcomes : List Outcome} {now : Instant} {action : Action}

theorem silent_overlongRecords (before after : LineDecoder) :
    Silent (overlongRecords before after) := by
  simp [Silent, overlongRecords, Outcome.line?]

theorem silent_records {α : Type} (record : α → LogRecord) (notes : List α) :
    Silent (notes.map fun note => .record (record note)) := by
  simp [Silent, List.filterMap_map, Function.comp_def, Outcome.line?]

/-! ## The client -/

theorem outbox_of_clientIsFree (free : before.clientIsFree = true) : before.outbox = [] := by
  rw [clientIsFree, Bool.and_eq_true] at free
  exact List.isEmpty_iff.mp free.1

theorem clientActs?_acted (acted : before.clientActs? = some (after, outcomes)) :
    Acted before .clientActs after outcomes := by
  unfold clientActs? at acted
  split at acted
  · exact absurd acted (by simp)
  · next note others outbox =>
      obtain ⟨rfl, rfl⟩ := Prod.mk.inj (Option.some.inj acted)
      exact .noted outbox
  · next message others outbox =>
      obtain ⟨rfl, rfl⟩ := Prod.mk.inj (Option.some.inj acted)
      exact .wrote outbox
  · next event others outbox =>
      split at acted
      · next gone =>
          obtain ⟨rfl, rfl⟩ := Prod.mk.inj (Option.some.inj acted)
          unfold emitUnheard
          split
          · next ended => exact .unheard outbox gone (by simp [ended])
          · next going =>
              have ends : before.client.unheard = before.client.finish (some .disconnected) := by
                unfold Client.unheard
                split
                · next ended => simp [Client.outcome?, ended] at going
                · rfl
              exact ends ▸ .hungUp outbox gone going
      · next heard =>
          split at acted
          · next room =>
              obtain ⟨rfl, rfl⟩ := Prod.mk.inj (Option.some.inj acted)
              exact .emitted outbox heard room
          · exact absurd acted (by simp)

theorem clientReads?_acted (free : before.clientIsFree = true)
    (acted : before.clientReads? now = some (after, outcomes)) :
    Acted before (.clientReads now) after outcomes := by
  have idle := outbox_of_clientIsFree free
  simp only [clientReads?] at acted
  generalize (if before.link.closed = true then LineDecoder.decodeEnd else LineDecoder.decode)
    before.link.decoder = taken at acted
  have silent := silent_overlongRecords before.link.decoder taken.2
  split at acted
  · next text _ =>
      split at acted
      · obtain ⟨rfl, rfl⟩ := Prod.mk.inj (Option.some.inj acted)
        exact .skipped idle silent
      · next incoming its =>
          obtain ⟨rfl, rfl⟩ := Prod.mk.inj (Option.some.inj acted)
          refine .read idle its ?_
          rw [Silent, List.filterMap_append, silent]
          rfl
  · split at acted
    · obtain ⟨rfl, rfl⟩ := Prod.mk.inj (Option.some.inj acted)
      exact .closed idle silent
    · split at acted
      · exact absurd acted (by simp)
      · obtain ⟨rfl, rfl⟩ := Prod.mk.inj (Option.some.inj acted)
        exact .skipped idle silent

theorem clientTakesSubmission?_acted (free : before.clientIsFree = true)
    (acted : before.clientTakesSubmission? now = some (after, outcomes)) :
    Acted before (.clientTakesSubmission now) after outcomes := by
  unfold clientTakesSubmission? at acted
  split at acted
  · next submission submissions queue =>
      split at acted
      · next takes =>
          obtain ⟨rfl, rfl⟩ := Prod.mk.inj (Option.some.inj acted)
          exact .took (outbox_of_clientIsFree free) queue takes
      · exact absurd acted (by simp)
  · exact absurd acted (by simp)

/-- A client that is held up has one event to send, and the end of its patience ends it. -/
theorem of_clientIsHeldUp (heldUp : before.clientIsHeldUp = true)
    (late : before.client.due ≤ now) :
    (∃ event, before.outbox = [.emit event]) ∧ before.client.outcome? = none ∧
      before.client.takesShares = false ∧
      before.client.step now .wake = before.client.finish (some .timeout) := by
  unfold clientIsHeldUp at heldUp
  split at heldUp
  · next id event phase outbox =>
      refine ⟨⟨event, outbox⟩, ?_, ?_, ?_⟩
      · rw [Client.outcome?, phase]
      · rw [Client.takesShares, phase]
      · simp only [Client.step, phase, Client.stepSetup, if_pos late]
  · next id event phase outbox =>
      refine ⟨⟨event, outbox⟩, ?_, ?_, ?_⟩
      · rw [Client.outcome?, phase]
      · rw [Client.takesShares, phase]
      · simp only [Client.step, phase, Client.stepSetup, if_pos late]
  · exact absurd heldUp (by simp)

theorem clientWakes?_acted (acted : before.clientWakes? now = some (after, outcomes)) :
    Acted before (.clientWakes now) after outcomes := by
  unfold clientWakes? at acted
  split at acted
  · next wakes =>
      obtain ⟨rfl, rfl⟩ := Prod.mk.inj (Option.some.inj acted)
      rw [Bool.or_eq_true, Bool.and_eq_true, decide_eq_true_eq] at wakes
      rcases wakes with free | ⟨heldUp, late⟩
      · exact .woke (outbox_of_clientIsFree free)
      · obtain ⟨⟨event, outbox⟩, going, unmined, ends⟩ := of_clientIsHeldUp heldUp late
        exact ends ▸ .gaveUp outbox going unmined
  · exact absurd acted (by simp)

theorem clientStops?_acted (idle : before.outbox = [])
    (acted : before.clientStops? now = some (after, outcomes)) :
    Acted before (.clientStops now) after outcomes := by
  unfold clientStops? at acted
  split at acted
  · exact absurd acted (by simp)
  · split at acted
    · exact absurd acted (by simp)
    · next unconnected =>
        obtain ⟨rfl, rfl⟩ := Prod.mk.inj (Option.some.inj acted)
        exact .withdrew idle unconnected
    · obtain ⟨rfl, rfl⟩ := Prod.mk.inj (Option.some.inj acted)
      exact .stopped idle

/-! ## The relay -/

theorem relayTakesEvent?_acted (acted : before.relayTakesEvent? = some (after, outcomes)) :
    Acted before .relayTakesEvent after outcomes := by
  unfold relayTakesEvent? at acted
  split at acted
  · next event events listening queue =>
      unfold Relay.handleEvent? at acted
      by_cases fails : before.relay.failsOn event = true
      · rw [if_pos fails] at acted
        obtain ⟨rfl, rfl⟩ := Prod.mk.inj (Option.some.inj acted)
        exact .failed listening queue fails
      · rw [if_neg fails] at acted
        obtain ⟨rfl, rfl⟩ := Prod.mk.inj (Option.some.inj acted)
        exact .heard listening queue rfl
  · next listening queue =>
      split at acted
      · obtain ⟨rfl, rfl⟩ := Prod.mk.inj (Option.some.inj acted)
        exact .bereft listening queue
      · exact absurd acted (by simp)
  · exact absurd acted (by simp)

theorem relayTakesShare?_acted (acted : before.relayTakesShare? = some (after, outcomes)) :
    Acted before .relayTakesShare after outcomes := by
  unfold relayTakesShare? at acted
  split at acted
  · next share shares listening queue =>
      unfold Relay.handleShare at acted
      by_cases current : before.relay.dispatcher.isCurrent share.jobId = true
      · rw [if_pos current] at acted
        obtain ⟨rfl, rfl⟩ := Prod.mk.inj (Option.some.inj acted)
        exact .submitted listening queue current
      · rw [if_neg current] at acted
        obtain ⟨rfl, rfl⟩ := Prod.mk.inj (Option.some.inj acted)
        exact .dropped listening queue (Bool.not_eq_true _ ▸ current)
  · exact absurd acted (by simp)

theorem relayDelivers?_acted (acted : before.relayDelivers? = some (after, outcomes)) :
    Acted before .relayDelivers after outcomes := by
  unfold relayDelivers? at acted
  split at acted
  · next order next delivered last delivering =>
      split at acted
      · next worker found =>
          split at acted
          · next exited =>
              obtain ⟨rfl, rfl⟩ := Prod.mk.inj (Option.some.inj acted)
              exact .passedOver delivering found exited
          · next awake =>
              obtain ⟨rfl, rfl⟩ := Prod.mk.inj (Option.some.inj acted)
              exact .delivered delivering found (Bool.not_eq_true _ ▸ awake)
      · next nobody =>
          obtain ⟨rfl, rfl⟩ := Prod.mk.inj (Option.some.inj acted)
          exact .wentRound delivering nobody (by cases order <;> rfl)
  · exact absurd acted (by simp)

theorem relayHandsOver?_acted (acted : before.relayHandsOver? = some (after, outcomes)) :
    Acted before .relayHandsOver after outcomes := by
  unfold relayHandsOver? at acted
  split at acted
  · next submission handing =>
      split at acted
      · next unheard =>
          obtain ⟨rfl, rfl⟩ := Prod.mk.inj (Option.some.inj acted)
          exact .refused handing unheard
      · split at acted
        · next room =>
            obtain ⟨rfl, rfl⟩ := Prod.mk.inj (Option.some.inj acted)
            exact .queued handing room
        · exact absurd acted (by simp)
  · exact absurd acted (by simp)

theorem relayStops?_acted (acted : before.relayStops? = some (after, outcomes)) :
    Acted before .relayStops after outcomes := by
  unfold relayStops? at acted
  split at acted
  · next stops =>
      obtain ⟨rfl, rfl⟩ := Prod.mk.inj (Option.some.inj acted)
      exact .left stops.1
  · exact absurd acted (by simp)

/-! ## The workers -/

/-- What a worker gives to the others goes to the counter of hashes and to the queue of shares. -/
theorem applyEffects_frame (name : String) (miner : Miner) (effects : List Worker.Effect) :
    ∃ statistics shares,
      (miner.applyEffects name effects).1 =
          { miner with relay := { miner.relay with statistics }, shares } ∧
        miner.relay.statistics.SameShares statistics ∧
        Silent (miner.applyEffects name effects).2 := by
  induction effects generalizing miner with
  | nil => exact ⟨_, _, rfl, .refl _, rfl⟩
  | cons effect effects ih =>
      cases effect with
      | count hashes =>
          obtain ⟨statistics, shares, frame, counted, silent⟩ := ih
            { miner with
              relay := { miner.relay with
                statistics := miner.relay.statistics.countHashes (UInt64.ofNat hashes) } }
          exact ⟨statistics, shares, frame,
            ⟨counted.submitted, counted.accepted, counted.rejected, counted.stale⟩, silent⟩
      | send share =>
          simp only [applyEffects]
          split
          · exact ih miner
          · exact ih { miner with shares := miner.shares ++ [share] }
      | note note => exact ih miner

theorem workerSteps?_acted {index : Nat}
    (acted : before.workerSteps? index = some (after, outcomes)) :
    Acted before (.workerSteps index) after outcomes := by
  unfold workerSteps? at acted
  split at acted
  · exact absurd acted (by simp)
  · next worker found =>
      split at acted
      · exact absurd acted (by simp)
      · split at acted
        · exact absurd acted (by simp)
        · generalize its : worker.step before.running before.relay.dispatcher.epoch = next at acted
          obtain ⟨stepped, effects⟩ := next
          obtain ⟨statistics, shares, frame, counted, silent⟩ :=
            applyEffects_frame stepped.settings.name
              { before with workers := before.workers.set index stepped } effects
          rw [Option.some.inj acted] at frame silent
          obtain rfl : stepped = (worker.step _ _).1 := (congrArg Prod.fst its).symm
          obtain rfl : after = _ := frame
          exact .worked found counted silent

/-! ## All parts -/

theorem act?_acted (acted : before.act? action = some (after, outcomes)) :
    Acted before action after outcomes := by
  cases action with
  | clientActs => exact clientActs?_acted acted
  | clientReads now =>
      simp only [act?] at acted
      split at acted
      · next free => exact clientReads?_acted free acted
      · exact absurd acted (by simp)
  | clientTakesSubmission now =>
      simp only [act?] at acted
      split at acted
      · next free => exact clientTakesSubmission?_acted free acted
      · exact absurd acted (by simp)
  | clientWakes now => exact clientWakes?_acted acted
  | clientStops now =>
      simp only [act?] at acted
      split at acted
      · next idle => exact clientStops?_acted (List.isEmpty_iff.mp idle) acted
      · exact absurd acted (by simp)
  | relayTakesEvent => exact relayTakesEvent?_acted acted
  | relayTakesShare => exact relayTakesShare?_acted acted
  | relayDelivers => exact relayDelivers?_acted acted
  | relayHandsOver => exact relayHandsOver?_acted acted
  | relayStops => exact relayStops?_acted acted
  | workerSteps index => exact workerSteps?_acted acted

end Miner

end StratumMiner
