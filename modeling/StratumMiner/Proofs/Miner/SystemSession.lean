import Mathlib
import StratumMiner.Proofs.Miner.Actions
import StratumMiner.Proofs.Pool.Lifecycle

/-!
# The session of a miner

The client of a miner reads lines, takes submissions out of a queue and wakes up, in any order among
the steps of the other parts, and does what it has to do one thing at a time.  As long as its events
are heard this is a session: each step of the miner is an event of the session, or none at all.  So
what holds of all sessions holds of the miner.
-/

namespace StratumMiner

namespace Miner

/-- The client of the miner and its submissions, as a session. -/
def session (miner : Miner) : PoolSession :=
  { client := miner.client, waiting := miner.submissions }

/-- What the client gets done by an action. -/
def performed (miner : Miner) : Action → List Client.Effect
  | .clientActs => miner.outbox.take 1
  | _ => []

variable {miner before after : Miner} {outcomes : List Outcome} {now : Instant} {action : Action}

/-! ## The client -/

/-- An action of the client is an event of its session, and nothing to the relay. -/
structure ClientTurn (before after : Miner) (now : Instant) (event : SessionEvent) : Prop where
  session : after.session = (before.session.act now event).1
  outbox : after.outbox = (before.session.act now event).2
  relay : after.relay = before.relay
  relayStage : after.relayStage = before.relayStage
  events : after.events = before.events

/-- A message that the client reads is a line of its session. -/
theorem ClientTurn.read {text : String} {incoming : Incoming}
    (its : Incoming.ofLine text = some incoming) (link : Link) :
    ClientTurn before ({ before with link }.clientGoes (before.client.step now incoming.input)) now
      (.line text) := by
  refine ⟨?_, ?_, rfl, rfl, rfl⟩ <;> simp only [PoolSession.act, its] <;> rfl

theorem ClientTurn.took {submission : Submission} {submissions : List Submission}
    (queue : before.submissions = submission :: submissions)
    (takes : before.client.takesShares = true) :
    ClientTurn before
      ({ before with submissions }.clientGoes (before.client.step now (.submit submission))) now
      .take := by
  refine ⟨?_, ?_, rfl, rfl, rfl⟩ <;>
    simp only [PoolSession.act, Miner.session, queue, takes, if_true] <;> rfl

theorem ClientTurn.closed (before : Miner) (now : Instant) (link : Link) :
    ClientTurn before ({ before with link }.clientGoes (before.client.step now .closed)) now
      .closed :=
  ⟨rfl, rfl, rfl, rfl, rfl⟩

theorem ClientTurn.woke (before : Miner) (now : Instant) :
    ClientTurn before (before.clientGoes (before.client.step now .wake)) now .wake :=
  ⟨rfl, rfl, rfl, rfl, rfl⟩

theorem ClientTurn.stopped (before : Miner) (now : Instant) :
    ClientTurn before (before.clientGoes (before.client.step now .shutdown)) now .shutdown :=
  ⟨rfl, rfl, rfl, rfl, rfl⟩

/-- The client gets the first thing done that it has to do, and nothing else happens. -/
theorem Acted.performs (acted : Acted before .clientActs after outcomes)
    (heard : before.relayStage ≠ .gone) :
    after.session = before.session ∧ before.outbox = before.outbox.take 1 ++ after.outbox ∧
      outcomes.filterMap Outcome.line? =
        ((before.outbox.take 1).filterMap Client.Effect.message?).map Message.line := by
  cases acted with
  | noted outbox | wrote outbox | emitted outbox =>
      rw [outbox]
      exact ⟨rfl, rfl, rfl⟩
  | unheard outbox gone | hungUp outbox gone => exact absurd gone heard

/-! ## All parts -/

/-- A step of the miner is an event of its session.  What comes of it is still to be done. -/
structure IsEvent (before after : Miner) (now : Instant) (event : SessionEvent) : Prop where
  session : after.session = (before.session.act now event).1
  outbox : after.outbox = before.outbox ++ (before.session.act now event).2

/-- A step of the miner is an event of its session, or nothing to it. -/
def GoesOn (before after : Miner) : Prop :=
  after.session = before.session ∧ after.outbox = before.outbox ∨
    ∃ now event, IsEvent before after now event

theorem ClientTurn.goesOn {event : SessionEvent} (turn : ClientTurn before after now event)
    (idle : before.outbox = []) : GoesOn before after := by
  refine .inr ⟨now, event, turn.session, ?_⟩
  rw [idle, List.nil_append, turn.outbox]

/-- Only the client writes lines. -/
theorem Acted.silent (acted : Acted before action after outcomes) (other : action ≠ .clientActs) :
    Silent outcomes := by
  cases acted with
  | noted | wrote | emitted | unheard | hungUp => exact absurd rfl other
  | skipped idle silent | read idle its silent | closed idle silent => exact silent
  | wentRound delivering nobody silent | worked found counted silent => exact silent
  | heard => exact silent_records RelayNote.record _
  | took | woke | gaveUp | withdrew | stopped | failed | bereft | submitted | dropped | passedOver
  | delivered | refused | queued | left =>
      rfl

/-- Every action of the miner is an event of its session or none, unless the client gets something
done or gives something up. -/
theorem Acted.goesOn (acted : Acted before action after outcomes)
    (connected : before.client.phase ≠ .unconnected) (other : action ≠ .clientActs)
    (patient : ∀ now, action = .clientWakes now → before.outbox = []) : GoesOn before after := by
  cases acted with
  | noted | wrote | emitted | unheard | hungUp => exact absurd rfl other
  | skipped => exact .inl ⟨rfl, rfl⟩
  | read idle its => exact (ClientTurn.read its _).goesOn idle
  | closed idle => exact (ClientTurn.closed before _ _).goesOn idle
  | took idle queue takes => exact (ClientTurn.took queue takes).goesOn idle
  | woke idle => exact (ClientTurn.woke before _).goesOn idle
  | gaveUp outbox => exact absurd (outbox.symm.trans (patient _ rfl)) (by simp)
  | withdrew idle unconnected => exact absurd unconnected connected
  | stopped idle => exact (ClientTurn.stopped before _).goesOn idle
  | @queued submission handing room =>
      exact .inr ⟨0, .queue submission, rfl, (List.append_nil _).symm⟩
  | heard | failed | bereft | submitted | dropped | passedOver | delivered | wentRound | refused
  | left | worked =>
      exact .inl ⟨rfl, rfl⟩

/-- What a miner can have come to whose client began over a new connection, what the client has got
done and which lines it has written.  Bytes come, the pool closes the connection and the miner stops
at any time; the relay hears the events, and the client gives none up. -/
inductive Talks (settings : PoolSettings) (begun : Instant) :
    Miner → List Client.Effect → List String → Prop where
  | starts {miner : Miner} (session : miner.session = PoolSession.opened settings begun)
      (outbox : miner.outbox = ((Client.unconnected settings).start begun).2) :
      Talks settings begun miner [] []
  | acts {before after : Miner} {done : List Client.Effect} {lines : List String} {action : Action}
      {outcomes : List Outcome} (talks : Talks settings begun before done lines)
      (heard : before.relayStage ≠ .gone)
      (patient : ∀ now, action = .clientWakes now → before.outbox = [])
      (acted : before.act? action = some (after, outcomes)) :
      Talks settings begun after (done ++ before.performed action)
        (lines ++ outcomes.filterMap Outcome.line?)
  | connects {before : Miner} {done : List Client.Effect} {lines : List String}
      (talks : Talks settings begun before done lines) (link : Link) :
      Talks settings begun { before with link } done lines
  | stops {before : Miner} {done : List Client.Effect} {lines : List String}
      (talks : Talks settings begun before done lines) :
      Talks settings begun { before with running := false } done lines

variable {settings : PoolSettings} {begun : Instant} {done : List Client.Effect}
  {lines : List String}

/-- Every run of a miner whose events are heard is a session of its client: what the client has got
done and has yet to do is what it wanted done in the session, and it has written the lines of its
requests. -/
theorem Talks.shows (talks : Talks settings begun miner done lines) :
    ∃ events : List (Instant × SessionEvent),
      miner.session = (PoolSession.opened settings begun).behind events ∧
        done ++ miner.outbox = PoolSession.effects settings begun events ∧
          lines = (done.filterMap Client.Effect.message?).map Message.line := by
  induction talks with
  | starts session outbox =>
      refine ⟨[], session, ?_, rfl⟩
      rw [outbox, PoolSession.effects, PoolSession.moments, List.flatMap_nil, List.append_nil,
        List.nil_append]
  | @acts before after done lines action outcomes talks heard patient acted ih =>
      obtain ⟨events, session, effects, written⟩ := ih
      have acted := act?_acted acted
      by_cases acts : action = .clientActs
      · subst acts
        obtain ⟨same, outbox, shown⟩ := acted.performs heard
        refine ⟨events, same.trans session, ?_, ?_⟩
        · rw [← effects, List.append_assoc]
          exact congrArg _ outbox.symm
        · rw [written, shown, performed, List.filterMap_append, List.map_append]
      · have nothing : before.performed action = [] := by
          cases action <;> first | rfl | exact absurd rfl acts
        have connected : before.client.phase ≠ .unconnected := by
          have still := PoolSession.behind_connected settings begun events
          rw [← session] at still
          exact still
        rw [nothing, List.append_nil, acted.silent acts, List.append_nil]
        rcases acted.goesOn connected acts patient with ⟨same, outbox⟩ | ⟨now, event, its⟩
        · exact ⟨events, same.trans session, outbox ▸ effects, written⟩
        · refine ⟨events ++ [(now, event)], ?_, ?_, written⟩
          · rw [its.session, session, PoolSession.behind_concat]
          · rw [its.outbox, ← List.append_assoc, effects, session, PoolSession.effects_concat]
  | connects talks link ih => exact ih
  | stops talks ih => exact ih

end Miner

end StratumMiner
