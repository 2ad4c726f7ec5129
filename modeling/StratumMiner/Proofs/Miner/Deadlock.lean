import Mathlib
import StratumMiner.Proofs.Miner.ShareLedger
import StratumMiner.Proofs.Pool.Emission

/-!
# The relay and the client waiting for each other

The client sends events into one queue and the relay submissions into another, and each waits for
room while it sends and does nothing else.  When both queues are full and each has one more to send
while the client mines, neither goes on any more, and nothing that happens frees them, not even that
the miner stops.

It does not come to that if a line of the pool and a share of a worker are only taken while there is
room for one more submission or for two more events: while the relay waits, the client has no more
events to send than there is room for, its last one included.
-/

namespace StratumMiner

theorem RelayStage.inHand_eq_one_iff {stage : RelayStage} :
    stage.inHand = 1 ↔ ∃ submission, stage = .handing submission := by
  cases stage <;> simp [inHand]

namespace Miner

open Client.Effect (emissions)

/-! ## Moves -/

/-- What happens to a miner whose parts take an action only when it is allowed.  Bytes come, the
pool closes the connection, the miner stops, and any share is found while there is room for it. -/
inductive Moves (allowed : Miner → Action → Prop) : Miner → Miner → Prop where
  | acts {before after : Miner} {action : Action} {outcomes : List Outcome}
      (permitted : allowed before action) (acted : before.act? action = some (after, outcomes)) :
      Moves allowed before after
  | receives (before : Miner) (bytes : Bytes) :
      Moves allowed before
        { before with
          link := { before.link with decoder := before.link.decoder.append bytes } }
  | closes (before : Miner) :
      Moves allowed before { before with link := { before.link with closed := true } }
  | stops (before : Miner) : Moves allowed before { before with running := false }
  | finds (before : Miner) (share : Share) (room : before.shares.length < shareRoom) :
      Moves allowed before { before with shares := before.shares ++ [share] }

/-- What a miner can come to. -/
abbrev Reaches (allowed : Miner → Action → Prop) : Miner → Miner → Prop :=
  Relation.ReflTransGen (Moves allowed)

/-- Every part takes what it likes of what there is. -/
def Freely (_ : Miner) (_ : Action) : Prop :=
  True

/-- There is room for one more submission or for two more events. -/
def HasSlack (miner : Miner) : Prop :=
  miner.submissions.length < submissionRoom ∨ miner.events.length + 2 ≤ eventRoom

/-- The client takes a line, and the relay a share, only while there is slack. -/
def Cautiously (miner : Miner) : Action → Prop
  | .clientReads _ | .relayTakesShare => miner.HasSlack
  | _ => True

/-- A new connection to the pool. -/
def newLink : Link :=
  { decoder := .empty maxLineLength, closed := false, finished := false }

/-- A miner over a new connection, with any workers. -/
def opening (settings : PoolSettings) (begun : Instant) (workers : List Worker) : Miner :=
  { running := true
    client := ((Client.unconnected settings).start begun).1
    link := newLink
    outbox := ((Client.unconnected settings).start begun).2
    events := []
    submissions := []
    hasMined := false
    relay := { username := settings.username, dispatcher := Dispatcher.initial 0,
               statistics := Statistics.empty }
    relayStage := .listening
    workers
    shares := [] }

/-! ## Waiting -/

/-- The client waits for room in the queue of events. -/
def ClientWaits (miner : Miner) : Prop :=
  (∃ event others, miner.outbox = .emit event :: others) ∧ miner.relayStage ≠ .gone ∧
    eventRoom ≤ miner.events.length

/-- The relay waits for room in the queue of submissions. -/
def RelayWaits (miner : Miner) : Prop :=
  (∃ submission, miner.relayStage = .handing submission) ∧
    submissionRoom ≤ miner.submissions.length

/-- The relay and the client wait for each other. -/
structure Deadlocked (miner : Miner) : Prop where
  client : miner.ClientWaits
  relay : miner.RelayWaits

variable {miner before after : Miner} {outcomes : List Outcome} {now : Instant} {action : Action}
  {allowed : Miner → Action → Prop}

theorem relayWaits_iff :
    miner.RelayWaits ↔
      miner.relayStage.inHand = 1 ∧ submissionRoom ≤ miner.submissions.length := by
  rw [RelayWaits, RelayStage.inHand_eq_one_iff]

/-- While the client mines, neither it nor the relay can act. -/
theorem Deadlocked.act (deadlocked : before.Deadlocked) (mining : before.client.phase = .mining)
    (acted : Acted before action after outcomes) :
    after.Deadlocked ∧ after.client.phase = .mining := by
  obtain ⟨⟨⟨event, others, outbox⟩, heard, full⟩, ⟨submission, handing⟩, queue⟩ := deadlocked
  cases acted with
  | noted sends | wrote sends => simp [outbox] at sends
  | emitted sends heard room => exact absurd full (Nat.not_le.mpr room)
  | unheard sends gone | hungUp sends gone => exact absurd gone heard
  | skipped idle | read idle | closed idle | took idle | woke idle | withdrew idle
  | stopped idle =>
      simp [outbox] at idle
  -- A client that mines has no patience that could end.
  | gaveUp sends going unmined => simp [Client.takesShares, mining] at unmined
  | heard listening | failed listening | bereft listening | submitted listening
  | dropped listening | left listening =>
      simp [handing] at listening
  | passedOver delivering | delivered delivering | wentRound delivering =>
      simp [handing] at delivering
  | refused its unheard =>
      have lasts : before.client.outcome? = none := by rw [Client.outcome?, mining]
      exact absurd lasts (outcome?_of_submissionsUnheard unheard)
  | queued its room => exact absurd queue (Nat.not_le.mpr room)
  | worked => exact ⟨⟨⟨⟨event, others, outbox⟩, heard, full⟩, ⟨submission, handing⟩, queue⟩, mining⟩

/-- Whatever happens, the relay and the client go on waiting. -/
theorem Deadlocked.lasts (deadlocked : before.Deadlocked) (mining : before.client.phase = .mining)
    (reaches : Reaches allowed before after) : after.Deadlocked := by
  suffices goesOn : after.Deadlocked ∧ after.client.phase = .mining from goesOn.1
  induction reaches with
  | refl => exact ⟨deadlocked, mining⟩
  | tail reaches moves ih =>
      cases moves with
      | acts permitted acted => exact ih.1.act ih.2 (act?_acted acted)
      | receives | closes | stops | finds => exact ⟨⟨ih.1.client, ih.1.relay⟩, ih.2⟩

/-! ## Slack -/

/-- How many events the client has to send before it can take anything else, and at the end. -/
def outstanding (miner : Miner) : ℕ :=
  emissions miner.outbox + miner.client.owed

/-- While the relay waits, there is room for all that the client has to send. -/
structure Unclogged (miner : Miner) : Prop where
  few : miner.outstanding ≤ 2
  room : miner.RelayWaits → miner.events.length + miner.outstanding ≤ eventRoom

theorem opening_unclogged (settings : PoolSettings) (begun : Instant) (workers : List Worker) :
    (opening settings begun workers).Unclogged where
  few := by
    have one : (opening settings begun workers).outstanding = 1 := rfl
    omega
  room := fun waits => absurd (relayWaits_iff.mp waits).1 (by simp [opening, RelayStage.inHand])

/-- Where there is room for all that the client has to send, it does not wait. -/
theorem Unclogged.not_deadlocked (unclogged : miner.Unclogged) : ¬miner.Deadlocked := by
  rintro ⟨⟨⟨event, others, outbox⟩, heard, full⟩, waits⟩
  have room := unclogged.room waits
  rw [outstanding, outbox, Client.Effect.emissions_emit] at room
  omega

/-- The client has no more to send than before, and the queue of events is the same. -/
theorem Unclogged.of_fewer (unclogged : before.Unclogged)
    (fewer : after.outstanding ≤ before.outstanding) (events : after.events = before.events)
    (waited : after.RelayWaits → before.RelayWaits) : after.Unclogged where
  few := fewer.trans unclogged.few
  room := fun waits =>
    events ▸ (Nat.add_le_add_left fewer _).trans (unclogged.room (waited waits))

/-- The client does nothing, and the relay has nothing in its hand. -/
theorem Unclogged.emptyHanded (unclogged : before.Unclogged) (client : after.client = before.client)
    (outbox : after.outbox = before.outbox) (empty : after.relayStage.inHand = 0) :
    after.Unclogged where
  few := by
    rw [outstanding, client, outbox]
    exact unclogged.few
  room := by
    intro waits
    rw [relayWaits_iff, empty] at waits
    omega

/-! ### The client -/

/-- The client gets something done and has no more to send than before. -/
theorem Unclogged.performed {effect : Client.Effect} {others : List Client.Effect}
    (unclogged : before.Unclogged) (outbox : before.outbox = effect :: others) :
    Unclogged { before with outbox := others } := by
  refine unclogged.of_fewer ?_ rfl id
  have whole := Client.Effect.emissions_append [effect] others
  rw [List.singleton_append] at whole
  simp only [outstanding, outbox, whole]
  omega

/-- An event goes from the client to the queue. -/
theorem Unclogged.emits {event : PoolEvent} {others : List Client.Effect}
    (unclogged : before.Unclogged) (outbox : before.outbox = .emit event :: others) :
    Unclogged { before with events := before.events ++ [event], outbox := others } := by
  obtain ⟨few, room⟩ := unclogged
  rw [outstanding, outbox, Client.Effect.emissions_emit] at few room
  refine ⟨by unfold outstanding; simp only; omega, fun waits => ?_⟩
  have left := room waits
  simp only [outstanding, List.length_append, List.length_singleton]
  omega

/-- A client that gives up has its last event to send, which it owed before. -/
theorem Unclogged.finishes (unclogged : before.Unclogged) (going : before.client.outcome? = none)
    (fault : Option PoolFault) :
    (before.clientGoes (before.client.finish fault)).Unclogged := by
  have within : before.client.KeepsWithin 0 (before.client.finish fault) :=
    Client.finish_keepsWithin going fault
  have owed : before.client.owed ≤ before.outstanding := Nat.le_add_left _ _
  exact unclogged.of_fewer (Nat.le_trans within owed) rfl id

/-- A free client that takes something new has at most one event more to send, and none more unless
it takes a line. -/
theorem Unclogged.turn {event : SessionEvent} (unclogged : before.Unclogged)
    (empty : before.outbox = []) (turn : ClientTurn before after now event)
    (unqueued : event.queued? = none) (slack : event.news = 0 ∨ before.HasSlack) :
    after.Unclogged := by
  have within := before.session.act_keepsWithin now event
  rw [← turn.session, ← turn.outbox] at within
  change emissions after.outbox + after.client.owed ≤ before.client.owed + event.news at within
  have owed := before.client.owed_le_one
  have news := event.news_le_one
  have drawn := before.session.waiting_act_le now unqueued
  rw [← turn.session] at drawn
  change after.submissions.length ≤ before.submissions.length at drawn
  refine ⟨by unfold outstanding; omega, fun waits => ?_⟩
  rw [relayWaits_iff, turn.relayStage] at waits
  have waited : before.RelayWaits := relayWaits_iff.mpr ⟨waits.1, waits.2.trans drawn⟩
  have room := unclogged.room waited
  rw [outstanding, empty, Client.Effect.emissions_nil] at room
  rw [outstanding, turn.events]
  -- A relay that waits has no room for a submission, so the slack is room for two events.
  rcases slack with nothing | submissions | events
  · omega
  · exact absurd waited.2 (Nat.not_le.mpr submissions)
  · omega

/-- A client without a connection has nothing left to send when it withdraws. -/
theorem Unclogged.withdraws (unclogged : before.Unclogged) :
    Unclogged { before with client := before.client.withdraw } := by
  refine unclogged.of_fewer ?_ rfl id
  exact Nat.add_le_add_left (Nat.zero_le before.client.owed) (emissions before.outbox)

/-! ### The relay -/

/-- When the relay takes a share that does not fit, there is room for two events. -/
theorem Unclogged.submits {relay : Relay} {shares : List Share} {submission : Submission}
    (unclogged : before.Unclogged) (slack : before.HasSlack) :
    Unclogged { before with relay, shares, relayStage := .handing submission } := by
  refine ⟨unclogged.few, fun waits => ?_⟩
  have few := unclogged.few
  rcases slack with fits | events
  · exact absurd waits.2 (Nat.not_le.mpr fits)
  · exact (Nat.add_le_add_left few _).trans events

/-! ### All parts -/

theorem Unclogged.act (unclogged : before.Unclogged) (cautious : before.Cautiously action)
    (acted : Acted before action after outcomes) : after.Unclogged := by
  cases acted with
  | noted outbox | wrote outbox | unheard outbox => exact unclogged.performed outbox
  | emitted outbox => exact unclogged.emits outbox
  | hungUp outbox gone going | gaveUp outbox going => exact unclogged.finishes going _
  | read idle its => exact unclogged.turn idle (ClientTurn.read its _) rfl (.inr cautious)
  | closed idle => exact unclogged.turn idle (ClientTurn.closed before _ _) rfl (.inr cautious)
  | took idle queue takes =>
      exact unclogged.turn idle (ClientTurn.took queue takes) rfl (.inl rfl)
  | woke idle => exact unclogged.turn idle (ClientTurn.woke before _) rfl (.inl rfl)
  | withdrew => exact unclogged.withdraws
  | stopped idle => exact unclogged.turn idle (ClientTurn.stopped before _) rfl (.inl rfl)
  | heard | bereft | wentRound => exact unclogged.emptyHanded rfl rfl (inHand_relayGoes _ _ _)
  | submitted => exact unclogged.submits cautious
  | failed | dropped | passedOver | delivered | refused | queued | left =>
      exact unclogged.emptyHanded rfl rfl rfl
  | skipped | worked => exact ⟨unclogged.few, unclogged.room⟩

theorem Unclogged.moves (unclogged : before.Unclogged) (moves : Moves Cautiously before after) :
    after.Unclogged := by
  cases moves with
  | acts cautious acted => exact unclogged.act cautious (act?_acted acted)
  | receives | closes | stops | finds => exact ⟨unclogged.few, unclogged.room⟩

/-- Whatever the pool sends and the workers find, and whichever part goes on next, the relay and the
client do not come to wait for each other if lines and shares are only taken while there is
slack. -/
theorem not_deadlocked_of_cautiously {settings : PoolSettings} {begun : Instant}
    {workers : List Worker} (reaches : Reaches Cautiously (opening settings begun workers) miner) :
    ¬miner.Deadlocked := by
  have unclogged : miner.Unclogged := by
    induction reaches with
    | refl => exact opening_unclogged settings begun workers
    | tail reaches moves ih => exact ih.moves moves
  exact unclogged.not_deadlocked

/-! ## A careful run -/

instance (miner : Miner) : Decidable miner.HasSlack :=
  inferInstanceAs (Decidable (_ ∨ _))

instance (miner : Miner) (action : Action) : Decidable (miner.Cautiously action) :=
  match action with
  | .clientReads _ | .relayTakesShare => inferInstanceAs (Decidable miner.HasSlack)
  | .clientActs | .clientTakesSubmission _ | .clientWakes _ | .clientStops _ | .relayTakesEvent
  | .relayDelivers | .relayHandsOver | .relayStops | .workerSteps _ => isTrue trivial

/-- Something that happens to a miner. -/
inductive Incident where
  | receives (bytes : Bytes)
  | finds (share : Share)
  | acts (action : Action)

/-- The miner behind an incident, if it can happen while the parts take care. -/
def meets? (miner : Miner) : Incident → Option Miner
  | .receives bytes => some (miner.receiving bytes)
  | .finds share =>
      if miner.shares.length < shareRoom then some { miner with shares := miner.shares ++ [share] }
      else none
  | .acts action =>
      if miner.Cautiously action then (miner.act? action).map Prod.fst else none

theorem moves_of_meets? {incident : Incident} (met : before.meets? incident = some after) :
    Moves Cautiously before after := by
  cases incident with
  | receives bytes => exact Option.some.inj met ▸ .receives before bytes
  | finds share =>
      simp only [meets?] at met
      split at met
      · next room => exact Option.some.inj met ▸ .finds before share room
      · exact absurd met (by simp)
  | acts action =>
      simp only [meets?] at met
      split at met
      · next cautious =>
          obtain ⟨⟨next, outcomes⟩, acted, rfl⟩ := Option.map_eq_some_iff.mp met
          exact .acts cautious acted
      · exact absurd met (by simp)

/-- What a careful script comes to. -/
theorem reaches_of_script {script : List Incident}
    (played : script.foldlM meets? before = some after) : Reaches Cautiously before after := by
  induction script generalizing before with
  | nil => exact Option.some.inj played ▸ .refl
  | cons incident others ih =>
      rw [List.foldlM_cons] at played
      obtain ⟨next, met, rest⟩ := Option.bind_eq_some_iff.mp played
      exact .head (moves_of_meets? met) (ih rest)

/-- The pool sets difficulty one. -/
def difficultyLine : Bytes :=
  arriving "\x7b\"id\":null,\"method\":\"mining.set_difficulty\",\"params\":[1]\x7d"

/-- The pool announces a job. -/
def jobLine : Bytes :=
  Utf8.encode "\x7b\"id\":null,\"method\":\"mining.notify\",\"params\":[\"4f\"," ++
    Utf8.encode "\"6b6455fd6db962c101f2d4fc0d67f4a3bc96391d000152960000000000000000\"," ++
    arriving "\"01\",\"02\",[],\"20000000\",\"1d00ffff\",\"5f5e1000\",true]\x7d"

/-- A line arrives, the client takes it, and then the parts act. -/
def reading (line : Bytes) (actions : List Action) : List Incident :=
  .receives line :: (.clientReads 0 :: actions).map .acts

/-- The client is let in, and the relay gets a job. -/
def beginning : List Incident :=
  [.acts .clientActs, .acts .clientActs] ++
    reading subscriptionLine
      [.clientActs, .clientActs, .clientActs, .clientActs, .relayTakesEvent] ++
    reading jobLine [.clientActs, .clientActs, .relayTakesEvent, .relayDelivers] ++
    reading authorizationLine [.clientActs, .clientActs, .clientActs, .clientActs]

/-- The workers find a share of the job, and the relay takes it. -/
def finding : List Incident :=
  [.finds (ledgerShare "4f"), .acts .relayTakesShare]

/-- The relay takes shares until it waits with one in its hand, and then the client reads on. -/
def carefulScript : List Incident :=
  beginning ++ (List.replicate submissionRoom (finding ++ [.acts .relayHandsOver])).flatten ++
    finding ++ reading difficultyLine [.clientActs, .clientActs]

/-- The relay waits behind a full queue of submissions, the client has read a line in the meantime,
and two events are queued. -/
theorem not_deadlocked_of_cautiously_sample : ∃ miner : Miner,
    Reaches Cautiously (opening ledgerSettings 0 []) miner ∧ miner.RelayWaits ∧
      miner.events.length = 2 ∧ ¬miner.Deadlocked := by
  have ends : (carefulScript.foldlM meets? (opening ledgerSettings 0 [])).map (fun miner =>
      (miner.relayStage.inHand, miner.submissions.length, miner.events.length)) =
        some (1, submissionRoom, 2) := by
    decide +kernel
  obtain ⟨miner, played, facts⟩ := Option.map_eq_some_iff.mp ends
  simp only [Prod.mk.injEq] at facts
  obtain ⟨inHand, submissions, events⟩ := facts
  have reaches := reaches_of_script played
  exact ⟨miner, reaches, relayWaits_iff.mpr ⟨inHand, submissions.ge⟩, events,
    not_deadlocked_of_cautiously reaches⟩

end Miner

end StratumMiner
