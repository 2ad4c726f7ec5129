import Mathlib
import StratumMiner.Proofs.Miner.Deadlock
import StratumMiner.Proofs.Pool.Framing
import StratumMiner.Proofs.Pool.Verifier

/-!
# How it comes to a deadlock

A miner that mines and has current work can fill both queues when its client takes one line of the
pool after another and its relay one share after another, for neither takes from the other then.
With one line and one share more, both wait for each other.  Letting the client in leads to such a
miner.
-/

namespace StratumMiner

namespace Miner

open Client.Effect (event? emissions)

variable {miner before after : Miner} {now : Instant} {message : Message}

theorem reaches_of_act (action : Action)
    (acted : (before.act? action).map Prod.fst = some after) : Reaches Freely before after := by
  obtain ⟨⟨next, outcomes⟩, its, rfl⟩ := Option.map_eq_some_iff.mp acted
  exact .single (.acts trivial its)

/-! ## Lines and effects -/

/-- A free client takes the line of a message as soon as it arrives. -/
theorem reaches_read (free : miner.clientIsFree = true) (link : miner.link = newLink)
    (portable : message.Portable) (fits : (Utf8.encode message.line).length ≤ maxLineLength)
    (now : Instant) :
    Reaches Freely miner (miner.clientGoes (miner.client.step now (.message message))) := by
  have line : ((LineDecoder.empty maxLineLength).append
      (Utf8.encode message.line ++ [newline])).decode =
        (some message.line, LineDecoder.empty maxLineLength) := by
    rw [LineDecoder.decode_append_line portable.newline_notMem_line fits, portable.text_line]
  obtain ⟨running, client, _, outbox, events, submissions, hasMined, relay, stage, workers,
    shares⟩ := miner
  obtain rfl : _ = newLink := link
  refine .head (.receives _ (Utf8.encode message.line ++ [newline]))
    (reaches_of_act (.clientReads now) ?_)
  refine (congrArg (Option.map Prod.fst) (if_pos free)).trans ?_
  have taken : (if newLink.closed = true then LineDecoder.decodeEnd else LineDecoder.decode)
      (newLink.decoder.append (Utf8.encode message.line ++ [newline])) =
        (some message.line, newLink.decoder) := line
  simp only [clientReads?, taken, portable.ofLine_line, Option.map_some, Incoming.input, clientGoes]

/-- The miner when its client has done all that it had to do. -/
def settled (miner : Miner) : Miner :=
  { miner with outbox := [], events := miner.events ++ miner.outbox.filterMap event? }

/-- The miner when its client has done all that comes of a message. -/
def told (miner : Miner) (message : Message) : Miner :=
  (miner.clientGoes (miner.client.step 0 (.message message))).settled

/-- The client gets done what it has to do when there is room for all its events. -/
theorem reaches_settled (heard : miner.relayStage ≠ .gone)
    (room : miner.events.length + emissions miner.outbox ≤ eventRoom) :
    Reaches Freely miner miner.settled := by
  unfold settled
  -- The outbox gets shorter and the queue longer with each effect, all else stays.
  obtain ⟨running, client, link, outbox, events, submissions, hasMined, relay, stage, workers,
    shares⟩ := miner
  simp only at heard room ⊢
  induction outbox generalizing events with
  | nil => rw [List.filterMap_nil, List.append_nil]
  | cons effect others ih =>
      cases effect with
      | note note => exact .trans (reaches_of_act .clientActs rfl) (ih events room)
      | write message => exact .trans (reaches_of_act .clientActs rfl) (ih events room)
      | emit event =>
          rw [Client.Effect.emissions_emit] at room
          have fits : events.length < eventRoom := by omega
          have left : (events ++ [event]).length + emissions others ≤ eventRoom := by
            rw [List.length_append, List.length_singleton]
            omega
          have rest := ih (events ++ [event]) left
          rw [List.append_assoc] at rest
          refine .trans (reaches_of_act .clientActs ?_) rest
          simp [act?, clientActs?, heard, fits]

theorem reaches_told (free : miner.clientIsFree = true) (link : miner.link = newLink)
    (portable : message.Portable) (fits : (Utf8.encode message.line).length ≤ maxLineLength)
    (heard : miner.relayStage ≠ .gone)
    (room : miner.events.length + emissions (miner.client.step 0 (.message message)).2 ≤
      eventRoom) :
    Reaches Freely miner (miner.told message) :=
  (reaches_read free link portable fits 0).trans (reaches_settled heard room)

/-- An array of plain values comes through a line unchanged. -/
theorem array_portable {values : List Json}
    (plain : ∀ value ∈ values, value.Exact ∧ value.Held 1) :
    (Json.array values).Exact ∧ (Json.array values).Held (Json.maxDepth - 1) := by
  have held : (Json.array values).Held 2 := .array fun value inside => (plain value inside).2
  exact ⟨.array fun value inside => (plain value inside).1, held.mono (by decide)⟩

theorem notification_portable {method : String} {values : List Json}
    (plain : ∀ value ∈ values, value.Exact ∧ value.Held 1) :
    (Message.notification method (.array values)).Portable where
  proper := by simp [Message.parts]
  exact := by simp [Message.parts, (array_portable plain).1]
  held := by simp [Message.parts, (array_portable plain).2]

/-! ## Filling the queues -/

/-- The client mines, the relay listens, there is current work, and nothing is under way. -/
structure Ready (miner : Miner) : Prop where
  mining : miner.client.phase = .mining
  idle : miner.outbox = []
  link : miner.link = newLink
  listening : miner.relayStage = .listening
  drained : miner.shares = []
  current : ∃ jobId, miner.relay.dispatcher.isCurrent jobId = true

theorem Ready.free (ready : miner.Ready) : miner.clientIsFree = true := by
  simp [clientIsFree, ready.idle, ready.mining]

/-- A pool sets difficulty one. -/
def difficultyNotice : Message :=
  .notification "mining.set_difficulty" (.array [.ofNatural 1])

theorem difficultyNotice_portable : difficultyNotice.Portable :=
  notification_portable (by simp [Json.ofNatural, Json.Exact.natural, Json.Held.number])

theorem difficultyNotice_fits :
    (Utf8.encode difficultyNotice.line).length ≤ maxLineLength := by
  decide +kernel

/-- It is one event for the relay, and nothing else. -/
theorem step_difficultyNotice : ∃ note event, ∀ client : Client, client.phase = .mining →
    client.step 0 (.message difficultyNotice) = (client, [.note note, .emit event]) := by
  have usable : (PoolDifficulty.ofDouble? (Double.ofNat 1)).isSome = true := by decide +kernel
  obtain ⟨difficulty, its⟩ := Option.isSome_iff_exists.mp usable
  refine ⟨.difficultyReceived difficulty, .difficultyChanged difficulty, fun client mining => ?_⟩
  have reaction : client.notified "mining.set_difficulty" (.array [.ofNatural 1]) =
      .effects client
        [.note (.difficultyReceived difficulty), .emit (.difficultyChanged difficulty)] := by
    have value : (Json.ofNatural 1).double? = some (Double.ofNat 1) := rfl
    have receives : client.notified "mining.set_difficulty" (.array [.ofNatural 1]) =
        client.receiveDifficulty (.array [.ofNatural 1]) := rfl
    simp only [receives, Client.receiveDifficulty, value, its]
  simp only [Client.step, mining, Client.stepMining, difficultyNotice, Client.takeNotification,
    reaction]

/-- Taking a line and no share, the miner has one event more in its queue. -/
theorem Ready.takes_line (ready : miner.Ready) (room : miner.events.length < eventRoom) :
    ∃ after, Reaches Freely miner after ∧ after.Ready ∧
      after.events.length = miner.events.length + 1 ∧ after.submissions = miner.submissions := by
  obtain ⟨note, event, step⟩ := step_difficultyNotice
  have heard : miner.relayStage ≠ .gone := by simp [ready.listening]
  have behind := step miner.client ready.mining
  have told := reaches_told ready.free ready.link difficultyNotice_portable difficultyNotice_fits
    heard (by rw [behind]; exact room)
  rw [Miner.told, behind] at told
  refine ⟨_, told, ?_, List.length_append, rfl⟩
  exact ⟨ready.mining, rfl, ready.link, ready.listening, ready.drained, ready.current⟩

/-- A listening relay takes a share that has been found for current work. -/
theorem Ready.reaches_handing (ready : miner.Ready) :
    ∃ relay submission, relay.dispatcher = miner.relay.dispatcher ∧
      Reaches Freely miner { miner with relay, relayStage := .handing submission } := by
  obtain ⟨jobId, current⟩ := ready.current
  obtain ⟨running, client, link, outbox, events, submissions, hasMined, relay, _, workers, _⟩ :=
    miner
  obtain rfl : _ = RelayStage.listening := ready.listening
  obtain rfl : _ = [] := ready.drained
  refine ⟨{ relay with statistics := relay.statistics.countSubmitted },
    Submission.ofShare relay.username (ledgerShare jobId), rfl, ?_⟩
  refine .head (.finds _ (ledgerShare jobId) (by decide : 0 < shareRoom))
    (reaches_of_act .relayTakesShare ?_)
  have handled : relay.handleShare (ledgerShare jobId) =
      ({ relay with statistics := relay.statistics.countSubmitted },
        some (Submission.ofShare relay.username (ledgerShare jobId)),
        .submitting (ledgerShare jobId)) := if_pos current
  simp only [act?, relayTakesShare?, List.nil_append, handled, Option.map_some]

/-- Taking a share and no event, the miner has one submission more in its queue. -/
theorem Ready.takes_share (ready : miner.Ready)
    (room : miner.submissions.length < submissionRoom) :
    ∃ after, Reaches Freely miner after ∧ after.Ready ∧ after.events = miner.events ∧
      after.submissions.length = miner.submissions.length + 1 := by
  obtain ⟨relay, submission, dispatcher, handing⟩ := ready.reaches_handing
  have lasts : miner.client.outcome? = none := by rw [Client.outcome?, ready.mining]
  have handedOver : Reaches Freely { miner with relay, relayStage := .handing submission }
      { miner with
        relay, relayStage := .listening, submissions := miner.submissions ++ [submission] } :=
    reaches_of_act .relayHandsOver
      (by simp [act?, relayHandsOver?, submissionsUnheard, lasts, room])
  refine ⟨_, handing.trans handedOver, ?_, rfl, List.length_append⟩
  exact ⟨ready.mining, ready.idle, ready.link, rfl, ready.drained, dispatcher ▸ ready.current⟩

/-- What a ready miner can add to a queue once, it can add until the queue is full. -/
theorem Ready.fills {size : Miner → ℕ} {room : ℕ} {Kept : Miner → Prop}
    (adds : ∀ miner : Miner, miner.Ready → Kept miner → size miner < room →
      ∃ after, Reaches Freely miner after ∧ after.Ready ∧ Kept after ∧
        size after = size miner + 1)
    (ready : miner.Ready) (kept : Kept miner) (fits : size miner ≤ room) :
    ∃ after, Reaches Freely miner after ∧ after.Ready ∧ Kept after ∧ size after = room := by
  obtain ⟨count, full⟩ := Nat.exists_eq_add_of_le fits
  induction count generalizing miner with
  | zero => exact ⟨miner, .refl, ready, kept, full.symm⟩
  | succ count ih =>
      obtain ⟨next, reaches, readyNext, keptNext, one⟩ := adds miner ready kept (by omega)
      obtain ⟨after, further, rest⟩ := ih readyNext keptNext (by omega) (by omega)
      exact ⟨after, reaches.trans further, rest⟩

/-- Line after line, the queue of events fills up. -/
theorem Ready.fills_events (ready : miner.Ready) (fits : miner.events.length ≤ eventRoom) :
    ∃ after, Reaches Freely miner after ∧ after.Ready ∧
      after.submissions = miner.submissions ∧ after.events.length = eventRoom := by
  refine Ready.fills (fun next readyNext kept room => ?_) ready rfl fits
  obtain ⟨after, reaches, readyAfter, one, same⟩ := readyNext.takes_line room
  exact ⟨after, reaches, readyAfter, same.trans kept, one⟩

/-- Share after share, the queue of submissions fills up. -/
theorem Ready.fills_submissions (ready : miner.Ready)
    (fits : miner.submissions.length ≤ submissionRoom) :
    ∃ after, Reaches Freely miner after ∧ after.Ready ∧ after.events = miner.events ∧
      after.submissions.length = submissionRoom := by
  refine Ready.fills (fun next readyNext kept room => ?_) ready rfl fits
  obtain ⟨after, reaches, readyAfter, same, one⟩ := readyNext.takes_share room
  exact ⟨after, reaches, readyAfter, same.trans kept, one⟩

/-- Behind full queues, one more share and one more line are enough. -/
theorem Ready.waits (ready : miner.Ready) (events : miner.events.length = eventRoom)
    (submissions : miner.submissions.length = submissionRoom) :
    ∃ after, Reaches Freely miner after ∧ after.client.phase = .mining ∧ after.Deadlocked := by
  obtain ⟨relay, submission, -, handing⟩ := ready.reaches_handing
  obtain ⟨note, event, step⟩ := step_difficultyNotice
  have told := @reaches_read { miner with relay, relayStage := .handing submission } _
    ready.free ready.link difficultyNotice_portable difficultyNotice_fits 0
  rw [step miner.client ready.mining] at told
  have noted : Reaches Freely
      (clientGoes { miner with relay, relayStage := .handing submission }
        (miner.client, [.note note, .emit event]))
      { clientGoes { miner with relay, relayStage := .handing submission }
        (miner.client, [.note note, .emit event]) with outbox := [.emit event] } :=
    reaches_of_act .clientActs rfl
  refine ⟨_, (handing.trans told).trans noted, ready.mining, ?_, ?_⟩
  · exact ⟨⟨event, [], rfl⟩, by simp [clientGoes], events.ge⟩
  · exact ⟨⟨submission, rfl⟩, submissions.ge⟩

/-- Every miner that mines and has current work can come to a deadlock. -/
theorem Ready.comes_to_deadlock (ready : miner.Ready) (events : miner.events.length ≤ eventRoom)
    (submissions : miner.submissions.length ≤ submissionRoom) :
    ∃ after, Reaches Freely miner after ∧ after.client.phase = .mining ∧ after.Deadlocked := by
  obtain ⟨first, toFirst, readyFirst, submissionsFirst, eventsFirst⟩ := ready.fills_events events
  obtain ⟨second, toSecond, readySecond, eventsSecond, submissionsSecond⟩ :=
    readyFirst.fills_submissions (submissionsFirst ▸ submissions)
  obtain ⟨after, toAfter, mining, deadlocked⟩ :=
    readySecond.waits (eventsSecond ▸ eventsFirst) submissionsSecond
  exact ⟨after, (toFirst.trans toSecond).trans toAfter, mining, deadlocked⟩

/-! ## Letting the client in -/

/-- What happens while the parts take care can happen anyway. -/
theorem reaches_freely (reaches : Reaches Cautiously before after) :
    Reaches Freely before after := by
  refine Relation.ReflTransGen.mono (fun first second moves => ?_) _ _ reaches
  cases moves with
  | acts cautious acted => exact .acts trivial acted
  | receives bytes => exact .receives first bytes
  | closes => exact .closes first
  | stops => exact .stops first
  | finds share room => exact .finds first share room

/-- The client is let in, and the one worker and the relay take what has come for them. -/
def readyScript : List Incident :=
  beginning ++ [.acts .relayDelivers, .acts .relayTakesEvent]

/-- A miner with one worker comes to mine, with current work and nothing under way. -/
theorem reaches_ready :
    ∃ miner,
      Reaches Freely (opening ledgerSettings 0 [(Worker.start Verifier.sampleSettings).1]) miner ∧
        miner.Ready ∧ miner.events = [] ∧ miner.submissions = [] := by
  have ends : (readyScript.foldlM meets?
      (opening ledgerSettings 0 [(Worker.start Verifier.sampleSettings).1])).map (fun miner =>
        ((miner.client.takesShares, miner.outbox.isEmpty),
          (decide (miner.link = newLink), decide (miner.relayStage = .listening)),
          (miner.shares.isEmpty, miner.relay.dispatcher.isCurrent "4f"),
          (miner.events.isEmpty, miner.submissions.isEmpty))) =
      some ((true, true), (true, true), (true, true), (true, true)) := by
    decide +kernel
  obtain ⟨miner, played, facts⟩ := Option.map_eq_some_iff.mp ends
  simp only [Prod.mk.injEq, decide_eq_true_eq, List.isEmpty_iff] at facts
  obtain ⟨⟨takes, idle⟩, ⟨link, listening⟩, ⟨drained, current⟩, events, submissions⟩ := facts
  exact ⟨miner, reaches_freely (reaches_of_script played),
    ⟨@PoolSession.phase_of_takesShares miner.session takes, idle, link, listening, drained, "4f",
      current⟩,
    events, submissions⟩

/-- The relay and the client of a miner come to wait for each other while it mines, and then they
wait for ever, even if the miner stops. -/
theorem relay_and_client_deadlock :
    ∃ miner,
      Reaches Freely (opening ledgerSettings 0 [(Worker.start Verifier.sampleSettings).1]) miner ∧
        miner.client.phase = .mining ∧ miner.Deadlocked ∧
        ∀ after, Reaches Freely miner after → after.Deadlocked := by
  obtain ⟨start, begins, ready, events, submissions⟩ := reaches_ready
  obtain ⟨miner, reaches, mining, deadlocked⟩ :=
    ready.comes_to_deadlock (by simp [events]) (by simp [submissions])
  exact ⟨miner, begins.trans reaches, mining, deadlocked,
    fun _ further => deadlocked.lasts mining further⟩

end Miner

end StratumMiner
