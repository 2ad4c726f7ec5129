import Mathlib
import StratumMiner.Pool.Conversation

/-!
# Sessions

A session is a client at work, with the shares that are queued for it.  Lines come from the pool,
shares are queued, time passes, the miner may be stopped; the client attends to one of these at a
time, and nothing is assumed of which comes when.  So a session is run by any list of events, each
at its moment.

What an event comes to is said once, in `PoolSession.Turn`.  What holds of whole sessions follows
from it by induction over the events.
-/

namespace StratumMiner

/-- A client with the shares that are queued for it. -/
structure PoolSession where
  client : Client
  /-- The shares that the client has not taken, oldest first. -/
  waiting : List Submission

/-- What happens in a session. -/
inductive SessionEvent where
  /-- A line comes from the pool. -/
  | line (text : String)
  /-- The pool closes the connection. -/
  | closed
  /-- A share is queued. -/
  | queue (submission : Submission)
  /-- The client looks for a share in the queue. -/
  | take
  /-- The client is woken. -/
  | wake
  /-- The client looks for shares that have waited too long, whether that is due or not. -/
  | tick
  /-- The miner stops. -/
  | shutdown

/-- What an answer from the pool says. -/
structure PoolAnswer where
  /-- The request that is answered. -/
  id : UInt64
  result : Option Json
  error : Option Json

namespace SessionEvent

/-- The answer that a line holds. -/
def answerIn? (text : String) : Option PoolAnswer :=
  match (Incoming.ofLine text).map Incoming.content with
  | some (.ok (.response id result error)) => some { id, result, error }
  | _ => none

/-- The answer that comes with an event. -/
def answer? : SessionEvent → Option PoolAnswer
  | .line text => answerIn? text
  | _ => none

/-- Whether an event ends every session. -/
def isEnd : SessionEvent → Bool
  | .closed | .shutdown => true
  | _ => false

/-- The share that is queued. -/
def queued? : SessionEvent → Option Submission
  | .queue submission => some submission
  | _ => none

end SessionEvent

namespace PoolSession

/-- The client is told something. -/
def told (session : PoolSession) (now : Instant) (input : Client.Input) :
    PoolSession × List Client.Effect :=
  let next := session.client.step now input
  ({ session with client := next.1 }, next.2)

/-- The session behind an event, and what the client wants done. -/
def act (session : PoolSession) (now : Instant) : SessionEvent → PoolSession × List Client.Effect
  | .line text =>
      match Incoming.ofLine text with
      | none => (session, [])
      | some incoming => session.told now incoming.input
  | .closed => session.told now .closed
  | .queue submission => ({ session with waiting := session.waiting ++ [submission] }, [])
  | .take =>
      match session.waiting with
      | [] => (session, [])
      | submission :: others =>
          if session.client.takesShares then
            { session with waiting := others }.told now (.submit submission)
          else (session, [])
  | .wake => session.told now .wake
  | .tick =>
      if session.client.takesShares then
        let next := session.client.prune now
        ({ session with client := next.1 }, next.2)
      else (session, [])
  | .shutdown => session.told now .shutdown

/-- A session that begins over a new connection. -/
def opened (settings : PoolSettings) (now : Instant) : PoolSession :=
  { client := ((Client.unconnected settings).start now).1, waiting := [] }

/-- Whether the client is being let in or mines. -/
def isGoing (session : PoolSession) : Bool :=
  match session.client.phase with
  | .subscribing _ | .authorizing _ | .mining => true
  | .unconnected | .ended _ => false

/-- Whether the client looks for shares that have waited too long. -/
def Prunes (session : PoolSession) (now : Instant) (event : SessionEvent) : Prop :=
  session.client.takesShares = true ∧
    match event with
    | .tick => True
    | .wake => session.client.due ≤ now
    | _ => False

end PoolSession

namespace Client

/-- Whether an effect has to do neither with being let in, nor with shares, nor with the end. -/
def Effect.isAside : Effect → Bool
  | .note (.stageChanged _ _) => false
  | .note _ => true
  | .emit (.newJob _) | .emit (.difficultyChanged _) | .emit (.extranonceChanged _) => true
  | .emit _ => false
  | .write _ => false

/-- Two clients are at the same point. -/
structure SamePoint (before after : Client) : Prop where
  settings : after.settings = before.settings
  phase : after.phase = before.phase
  stage : after.stage = before.stage
  nextId : after.nextId = before.nextId
  pending : after.pending = before.pending

theorem SamePoint.refl (client : Client) : SamePoint client client :=
  ⟨rfl, rfl, rfl, rfl, rfl⟩

/-- Whether a client waits for the answer to this request. -/
def awaits (client : Client) (id : UInt64) : Bool :=
  match client.phase with
  | .subscribing awaited | .authorizing awaited => awaited == id
  | .mining => client.pending.any fun share => share.id == id
  | .unconnected | .ended _ => false

variable {client : Client} {now : Instant}

/-- Whether what a notification does is of no weight, unless it asks for a new connection. -/
def Reaction.IsAside (client : Client) : Reaction → Prop
  | .effects after done => SamePoint client after ∧ ∀ effect ∈ done, effect.isAside = true
  | .failed _ | .reconnect => True

theorem receiveJob_isAside (params : Json) : (client.receiveJob params).IsAside client := by
  unfold receiveJob
  split
  · split
    · exact ⟨.refl client, by simp [Effect.isAside]⟩
    · exact trivial
  · exact trivial

theorem receiveDifficulty_isAside (params : Json) :
    (client.receiveDifficulty params).IsAside client := by
  simp only [receiveDifficulty]
  split
  · exact trivial
  · split
    · exact trivial
    · exact ⟨.refl client, by simp [Effect.isAside]⟩

theorem receiveExtranonce_isAside (params : Json) :
    (client.receiveExtranonce params).IsAside client := by
  unfold receiveExtranonce
  split
  · split
    · exact trivial
    · exact ⟨⟨rfl, rfl, rfl, rfl, rfl⟩, by simp [Effect.isAside]⟩
  · exact trivial

theorem notified_isAside (client : Client) (method : String) (params : Json) :
    (client.notified method params).IsAside client := by
  unfold notified
  split_ifs
  · exact receiveJob_isAside params
  · exact receiveDifficulty_isAside params
  · exact receiveExtranonce_isAside params
  · exact trivial
  · exact ⟨.refl client, by simp [Effect.isAside]⟩
  · exact ⟨.refl client, by simp [Effect.isAside]⟩

/-- A notification is of no weight, or it ends the session. -/
theorem takeNotification_cases (client : Client) (method : String) (params : Json)
    {report : NotificationFault → ClientNote}
    (plain : ∀ fault, (Effect.note (report fault)).isAside = true) :
    (SamePoint client (client.takeNotification method params report).1 ∧
        ∀ effect ∈ (client.takeNotification method params report).2, effect.isAside = true) ∨
      client.takeNotification method params report = client.finish (some .reconnectRequested) := by
  unfold takeNotification
  have aside := client.notified_isAside method params
  cases reaction : client.notified method params with
  | effects after effects =>
      rw [reaction] at aside
      exact .inl aside
  | failed fault =>
      refine .inl ⟨.refl client, ?_⟩
      intro effect member
      rw [List.mem_singleton.mp member]
      exact plain fault
  | reconnect => exact .inr rfl

/-- A client that awaits the answer to its subscription takes it as a grant or as a fault. -/
theorem step_of_subscribing (now : Instant) {id : UInt64}
    (waits : client.phase = .subscribing id) :
    ∃ answered : Option Json → Option Json → Client × List Effect,
      (∀ input, client.step now input = client.stepSetup now id answered input) ∧
      (∀ result error subscription, readSubscription result error = .ok subscription →
        answered result error = client.subscribed now subscription) ∧
      ∀ result error fault, readSubscription result error = .error fault →
        answered result error = client.finish (some fault) := by
  obtain ⟨settings, phase, stage, nextId, subscription, pending, due⟩ := client
  obtain rfl : phase = .subscribing id := waits
  refine ⟨_, fun input => rfl, ?_, ?_⟩
  · intro result error subscription read
    simp only [read]
  · intro result error fault read
    simp only [read]

/-- A client that awaits the answer to its authorization takes it as a grant or as a fault. -/
theorem step_of_authorizing (now : Instant) {id : UInt64}
    (waits : client.phase = .authorizing id) :
    ∃ answered : Option Json → Option Json → Client × List Effect,
      (∀ input, client.step now input = client.stepSetup now id answered input) ∧
      (∀ result error, authorizationFault? result error = none →
        answered result error = client.authorized now) ∧
      ∀ result error fault, authorizationFault? result error = some fault →
        answered result error = client.finish (some fault) := by
  obtain ⟨settings, phase, stage, nextId, subscription, pending, due⟩ := client
  obtain rfl : phase = .authorizing id := waits
  refine ⟨_, fun input => rfl, ?_, ?_⟩
  · intro result error read
    simp only [read]
  · intro result error fault read
    simp only [read]

/-- What has weight is not among things of no weight. -/
theorem Effect.notMem_asides {asides : List Effect}
    (plain : ∀ effect ∈ asides, effect.isAside = true) {effect : Effect}
    (weighty : effect.isAside = false) : effect ∉ asides :=
  fun member => absurd ((plain effect member).symm.trans weighty) (by simp)

theorem mem_finish {fault : Option PoolFault} {effect : Effect}
    (member : effect ∈ (client.finish fault).2) :
    effect = .emit .disconnected ∨ ∃ note, effect = .note note := by
  rcases List.mem_append.mp member with shown | last
  · split at shown
    · exact absurd shown List.not_mem_nil
    · exact .inr ⟨_, List.mem_singleton.mp shown⟩
  · exact .inl (List.mem_singleton.mp last)

theorem prune_asides (now : Instant) (client : Client) :
    ∀ effect ∈ (client.prune now).2, effect.isAside = true := by
  intro effect member
  obtain ⟨share, -, rfl⟩ := List.mem_map.mp member
  rfl

end Client

namespace PoolSession

open Client (Effect)

/-- What an event comes to. -/
inductive Turn (before : PoolSession) (now : Instant) :
    SessionEvent → PoolSession → List Effect → Prop where
  /-- Nothing of weight. -/
  | aside {event : SessionEvent} {client : Client} {effects : List Effect}
      (same : Client.SamePoint before.client client)
      (asides : ∀ effect ∈ effects, effect.isAside = true)
      (silent : before.isGoing = false → effects = [])
      (unawaited : ∀ answer, event.answer? = some answer →
        before.client.awaits answer.id = false)
      (lasting : before.isGoing = true → event.isEnd = false)
      (unqueued : event.queued? = none)
      (untaken : event = .take → before.client.takesShares = true → before.waiting = [])
      (kept : ¬before.Prunes now event) :
      Turn before now event { before with client } effects
  | queued (submission : Submission) :
      Turn before now (.queue submission)
        { before with waiting := before.waiting ++ [submission] } []
  /-- The session comes to its end. -/
  | ends {event : SessionEvent} (asides : List Effect) (fault : Option PoolFault)
      (going : before.isGoing = true) (plain : ∀ effect ∈ asides, effect.isAside = true)
      (unmined : before.client.takesShares = true → event.answer? = none)
      (unqueued : event.queued? = none) (untaken : event ≠ .take)
      (kept : ¬before.Prunes now event) :
      Turn before now event { before with client := (before.client.finish fault).1 }
        (asides ++ (before.client.finish fault).2)
  /-- The pool grants a subscription. -/
  | granted {event : SessionEvent} {answer : PoolAnswer} {subscription : Subscription}
      (waits : before.client.phase = .subscribing answer.id)
      (answered : event.answer? = some answer)
      (grants : Client.readSubscription answer.result answer.error = .ok subscription) :
      Turn before now event
        { before with client := (Client.subscribed now before.client subscription).1 }
        (Client.subscribed now before.client subscription).2
  /-- The pool authorizes the user. -/
  | authorized {event : SessionEvent} {answer : PoolAnswer}
      (waits : before.client.phase = .authorizing answer.id)
      (answered : event.answer? = some answer)
      (grants : Client.authorizationFault? answer.result answer.error = none) :
      Turn before now event { before with client := (Client.authorized now before.client).1 }
        (Client.authorized now before.client).2
  | submits {submission : Submission} {others : List Submission}
      (mining : before.client.phase = .mining) (first : before.waiting = submission :: others) :
      Turn before now .take
        { client := (Client.submit now before.client submission).1, waiting := others }
        (Client.submit now before.client submission).2
  /-- The pool answers a share. -/
  | settles {event : SessionEvent} {answer : PoolAnswer} {share : PendingShare}
      (mining : before.client.phase = .mining) (answered : event.answer? = some answer)
      (found : (before.client.pending.find? fun share => share.id == answer.id) = some share) :
      Turn before now event
        { before with
          client :=
            { before.client with
              pending := before.client.pending.filter fun share => share.id != answer.id } }
        [.emit (Client.verdict share (Duration.clamp (now - share.sentAt)) answer.result
          answer.error)]
  | prunes {event : SessionEvent} (prunes : before.Prunes now event) :
      Turn before now event { before with client := (before.client.prune now).1 }
        (before.client.prune now).2

variable {session : PoolSession} {now : Instant} {event : SessionEvent}

/-- A turn of a session that goes on, in which the client is not even touched. -/
theorem turn_notes {notes : List Effect} (going : session.isGoing = true)
    (asides : ∀ effect ∈ notes, effect.isAside = true)
    (unawaited : ∀ answer, event.answer? = some answer →
      session.client.awaits answer.id = false)
    (lasting : event.isEnd = false) (unqueued : event.queued? = none)
    (untaken : event = .take → session.client.takesShares = true → session.waiting = [])
    (kept : ¬session.Prunes now event) : Turn session now event session notes := by
  refine .aside (.refl session.client) asides ?_ unawaited (fun _ => lasting) unqueued untaken kept
  simp [going]

/-- A turn in which something that is no answer is reported and left. -/
theorem turn_report {text : String} {notes : List Effect} (going : session.isGoing = true)
    (unanswered : SessionEvent.answerIn? text = none)
    (asides : ∀ effect ∈ notes, effect.isAside = true) :
    Turn session now (.line text) session notes := by
  refine turn_notes going asides ?_ rfl rfl ?_ fun prunes => prunes.2
  · simp [SessionEvent.answer?, unanswered]
  · simp

/-- The turn of a line that holds a notification. -/
theorem turn_notification {text method : String} {params : Json}
    {report : NotificationFault → ClientNote} (going : session.isGoing = true)
    (unanswered : SessionEvent.answerIn? text = none)
    (plain : ∀ fault, (Effect.note (report fault)).isAside = true) :
    Turn session now (.line text)
      { session with client := (session.client.takeNotification method params report).1 }
      (session.client.takeNotification method params report).2 := by
  have kept : ¬session.Prunes now (.line text) := fun prunes => prunes.2
  rcases session.client.takeNotification_cases method params plain with ⟨same, asides⟩ | ends
  · refine .aside same asides ?_ ?_ (fun _ => rfl) rfl ?_ kept
    · simp [going]
    · simp [SessionEvent.answer?, unanswered]
    · simp
  · rw [ends]
    refine .ends [] (some .reconnectRequested) going ?_ (fun _ => unanswered) rfl ?_ kept
    · simp
    · simp

/-- What a line holds when its content is known. -/
theorem answerIn?_of_content {text : String} {incoming : Incoming}
    (read : Incoming.ofLine text = some incoming) :
    SessionEvent.answerIn? text =
      match incoming.content with
      | .ok (.response id result error) => some { id, result, error }
      | _ => none := by
  simp only [SessionEvent.answerIn?, read, Option.map_some]
  rcases incoming.content with fault | ⟨_, _, _⟩ | ⟨_, _, _⟩ | ⟨_, _⟩ <;> rfl

/-- Outside a conversation, nothing comes of what happens. -/
theorem turn_idle (idle : session.isGoing = false) (event : SessionEvent) :
    Turn session now event (session.act now event).1 (session.act now event).2 := by
  have step (input : Client.Input) : session.client.step now input = (session.client, []) := by
    cases phase : session.client.phase with
    | unconnected | ended => simp only [Client.step, phase]
    | subscribing | authorizing | mining => simp [isGoing, phase] at idle
  have unmined : session.client.takesShares = false := by
    cases phase : session.client.phase with
    | mining => simp [isGoing, phase] at idle
    | unconnected | ended | subscribing | authorizing => simp only [Client.takesShares, phase]
  have unawaited (id : UInt64) : session.client.awaits id = false := by
    cases phase : session.client.phase with
    | unconnected | ended => simp only [Client.awaits, phase]
    | subscribing | authorizing | mining => simp [isGoing, phase] at idle
  have act (unqueued : event.queued? = none) : session.act now event = (session, []) := by
    cases event with
    | line text =>
        simp only [PoolSession.act, told, step]
        split <;> rfl
    | queue submission => simp [SessionEvent.queued?] at unqueued
    | take =>
        simp only [PoolSession.act, unmined]
        split <;> rfl
    | tick => simp [PoolSession.act, unmined]
    | closed | wake | shutdown => simp only [PoolSession.act, told, step]
  cases queued : event.queued? with
  | some submission =>
      cases event with
      | queue submission => exact .queued submission
      | line | closed | take | wake | tick | shutdown => simp [SessionEvent.queued?] at queued
  | none =>
      rw [act queued]
      refine .aside (.refl session.client) (by simp) (fun _ => rfl)
        (fun answer _ => unawaited answer.id) ?_ queued ?_ ?_
      · simp [idle]
      · simp [unmined]
      · rintro ⟨mining, -⟩
        simp [unmined] at mining

/-- The turn of an answer by which the pool does not let the client in. -/
theorem turn_refused {answer : PoolAnswer} (going : session.isGoing = true)
    (unmined : session.client.takesShares = false) (answered : event.answer? = some answer)
    (fault : Option PoolFault) :
    Turn session now event { session with client := (session.client.finish fault).1 }
      (session.client.finish fault).2 := by
  cases event with
  | line text =>
      refine .ends [] fault going ?_ ?_ rfl ?_ fun prunes => prunes.2
      · simp
      · simp [unmined]
      · simp
  | closed | queue | take | wake | tick | shutdown => simp [SessionEvent.answer?] at answered

section Setup

variable {id : UInt64} {answered : Option Json → Option Json → Client × List Effect}

/-- While the answer to a request is awaited, all turns but that of the answer are alike. -/
theorem turn_setup (going : session.isGoing = true)
    (unmined : session.client.takesShares = false)
    (awaits : ∀ other, session.client.awaits other = (id == other))
    (step : ∀ input, session.client.step now input =
      session.client.stepSetup now id answered input)
    (answers : ∀ {event : SessionEvent} {answer : PoolAnswer}, event.answer? = some answer →
      answer.id = id → Turn session now event
        { session with client := (answered answer.result answer.error).1 }
        (answered answer.result answer.error).2)
    (event : SessionEvent) :
    Turn session now event (session.act now event).1 (session.act now event).2 := by
  have kept : ¬session.Prunes now event := by
    rintro ⟨mining, -⟩
    simp [unmined] at mining
  cases event with
  | queue submission => exact .queued submission
  | take =>
      have nothing : session.act now .take = (session, []) := by
        simp only [PoolSession.act, unmined]
        split <;> rfl
      rw [nothing]
      exact turn_notes going (by simp) (by simp [SessionEvent.answer?]) rfl rfl
        (by simp [unmined]) kept
  | tick =>
      have nothing : session.act now .tick = (session, []) := by simp [PoolSession.act, unmined]
      rw [nothing]
      exact turn_notes going (by simp) (by simp [SessionEvent.answer?]) rfl rfl (by simp) kept
  | closed =>
      simp only [PoolSession.act, told, step, Client.stepSetup]
      refine .ends [] (some .disconnected) going ?_ (fun _ => rfl) rfl ?_ kept <;> simp
  | shutdown =>
      simp only [PoolSession.act, told, step, Client.stepSetup]
      refine .ends [] (some .disconnected) going ?_ (fun _ => rfl) rfl ?_ kept <;> simp
  | wake =>
      simp only [PoolSession.act, told, step, Client.stepSetup]
      split
      · refine .ends [] (some .timeout) going ?_ (fun _ => rfl) rfl ?_ kept <;> simp
      · exact turn_notes going (by simp) (by simp [SessionEvent.answer?]) rfl rfl (by simp) kept
  | line text =>
      simp only [PoolSession.act]
      cases read : Incoming.ofLine text with
      | none =>
          have unanswered : SessionEvent.answerIn? text = none := by
            simp only [SessionEvent.answerIn?, read, Option.map_none]
          exact turn_report going unanswered (by simp)
      | some incoming =>
          have answerEq := answerIn?_of_content read
          simp only [told, Incoming.input, step]
          cases content : incoming.content with
          | error fault =>
              rw [content] at answerEq
              exact turn_report going answerEq (by simp [Client.stepSetup, Effect.isAside])
          | ok message =>
              rw [content] at answerEq
              cases message with
              | request other method params =>
                  exact turn_report going answerEq (by simp [Client.stepSetup, Effect.isAside])
              | notification method params =>
                  exact turn_notification going answerEq fun fault => rfl
              | response other result error =>
                  have answered : (SessionEvent.line text).answer? =
                      some { id := other, result, error } := answerEq
                  simp only [Client.stepSetup]
                  split
                  · next same => exact answers answered same
                  · next different =>
                      refine turn_notes going (by simp [Effect.isAside]) ?_ rfl rfl
                        (by simp) kept
                      intro answer its
                      have same := Option.some.inj (answered.symm.trans its)
                      rw [awaits, ← same, beq_eq_false_iff_ne]
                      exact Ne.symm different

end Setup

/-- The turn of a line while the client mines. -/
theorem turn_mining_line (mining : session.client.phase = .mining) (text : String) :
    Turn session now (.line text) (session.act now (.line text)).1
      (session.act now (.line text)).2 := by
  have going : session.isGoing = true := by simp only [isGoing, mining]
  have kept : ¬session.Prunes now (.line text) := fun prunes => prunes.2
  simp only [PoolSession.act]
  cases read : Incoming.ofLine text with
  | none =>
      have unanswered : SessionEvent.answerIn? text = none := by
        simp only [SessionEvent.answerIn?, read, Option.map_none]
      exact turn_report going unanswered (by simp)
  | some incoming =>
      have answerEq := answerIn?_of_content read
      simp only [told, Incoming.input, Client.step, mining]
      cases content : incoming.content with
      | error fault =>
          rw [content] at answerEq
          exact turn_report going answerEq (by simp [Client.stepMining, Effect.isAside])
      | ok message =>
          rw [content] at answerEq
          cases message with
          | request other method params =>
              exact turn_report going answerEq (by simp [Client.stepMining, Effect.isAside])
          | notification method params =>
              exact turn_notification going answerEq fun fault => rfl
          | response other result error =>
              have answered : (SessionEvent.line text).answer? =
                  some { id := other, result, error } := answerEq
              simp only [Client.stepMining, Client.receiveAnswer]
              cases found : session.client.pending.find? fun share => share.id == other with
              | none =>
                  refine turn_notes going (by simp [Effect.isAside]) ?_ rfl rfl
                    (by simp) kept
                  intro answer its
                  have same := Option.some.inj (answered.symm.trans its)
                  simp only [Client.awaits, mining, ← same, List.any_eq_false, beq_iff_eq]
                  simpa using found
              | some share => exact .settles mining answered found

theorem turn_mining (mining : session.client.phase = .mining) (event : SessionEvent) :
    Turn session now event (session.act now event).1 (session.act now event).2 := by
  have going : session.isGoing = true := by simp only [isGoing, mining]
  have takes : session.client.takesShares = true := by simp only [Client.takesShares, mining]
  cases event with
  | line text => exact turn_mining_line mining text
  | queue submission => exact .queued submission
  | take =>
      cases waiting : session.waiting with
      | nil =>
          simp only [PoolSession.act, waiting]
          refine turn_notes going (by simp) (by simp [SessionEvent.answer?]) rfl rfl ?_ ?_
          · exact fun _ _ => waiting
          · exact fun prunes => prunes.2
      | cons submission others =>
          simp only [PoolSession.act, waiting, takes, if_true, told, Client.step, mining,
            Client.stepMining]
          exact .submits mining waiting
  | tick =>
      simp only [PoolSession.act, takes, if_true]
      exact .prunes ⟨takes, trivial⟩
  | wake =>
      simp only [PoolSession.act, told, Client.step, mining, Client.stepMining]
      split
      · next due => exact .prunes ⟨takes, due⟩
      · next early =>
          refine turn_notes going (by simp) (by simp [SessionEvent.answer?]) rfl rfl
            (by simp) ?_
          exact fun prunes => early prunes.2
  | closed =>
      simp only [PoolSession.act, told, Client.step, mining, Client.stepMining]
      refine .ends [.note (.closedByPool session.client.settings.url)] (some .disconnected) going ?_
        (fun _ => rfl) rfl ?_ fun prunes => prunes.2
      · simp [Effect.isAside]
      · simp
  | shutdown =>
      simp only [PoolSession.act, told, Client.step, mining, Client.stepMining]
      refine .ends [.note .shutdownRequested] none going ?_ (fun _ => rfl) rfl ?_
        fun prunes => prunes.2
      · simp [Effect.isAside]
      · simp

/-- Every event comes to one of these turns. -/
theorem act_turn (session : PoolSession) (now : Instant) (event : SessionEvent) :
    Turn session now event (session.act now event).1 (session.act now event).2 := by
  cases phase : session.client.phase with
  | unconnected => exact turn_idle (by simp only [isGoing, phase]) event
  | subscribing id =>
      have going : session.isGoing = true := by simp only [isGoing, phase]
      have unmined : session.client.takesShares = false := by simp only [Client.takesShares, phase]
      obtain ⟨answered, step, grants, refuses⟩ := Client.step_of_subscribing now phase
      refine turn_setup going unmined (fun other => by simp only [Client.awaits, phase]) step ?_
        event
      intro event answer its same
      subst same
      cases read : Client.readSubscription answer.result answer.error with
      | ok subscription =>
          rw [grants _ _ subscription read]
          exact .granted phase its read
      | error fault =>
          rw [refuses _ _ fault read]
          exact turn_refused going unmined its (some fault)
  | authorizing id =>
      have going : session.isGoing = true := by simp only [isGoing, phase]
      have unmined : session.client.takesShares = false := by simp only [Client.takesShares, phase]
      obtain ⟨answered, step, grants, refuses⟩ := Client.step_of_authorizing now phase
      refine turn_setup going unmined (fun other => by simp only [Client.awaits, phase]) step ?_
        event
      intro event answer its same
      subst same
      cases read : Client.authorizationFault? answer.result answer.error with
      | none =>
          rw [grants _ _ read]
          exact .authorized phase its read
      | some fault =>
          rw [refuses _ _ fault read]
          exact turn_refused going unmined its (some fault)
  | mining => exact turn_mining phase event
  | ended fault => exact turn_idle (by simp only [isGoing, phase]) event

end PoolSession

/-! ## Runs -/

/-- An event, and the session that it happens in. -/
structure SessionMoment where
  before : PoolSession
  now : Instant
  event : SessionEvent

namespace SessionMoment

/-- The session behind the event. -/
def after (moment : SessionMoment) : PoolSession :=
  (moment.before.act moment.now moment.event).1

/-- What the client wants done because of the event. -/
def effects (moment : SessionMoment) : List Client.Effect :=
  (moment.before.act moment.now moment.event).2

theorem turn (moment : SessionMoment) :
    moment.before.Turn moment.now moment.event moment.after moment.effects :=
  moment.before.act_turn moment.now moment.event

end SessionMoment

namespace PoolSession

/-- The session behind a list of events. -/
def behind (session : PoolSession) (events : List (Instant × SessionEvent)) : PoolSession :=
  events.foldl (fun session event => (session.act event.1 event.2).1) session

/-- The moments of a session with these events. -/
def moments (session : PoolSession) : List (Instant × SessionEvent) → List SessionMoment
  | [] => []
  | (now, event) :: events =>
      ⟨session, now, event⟩ :: (session.act now event).1.moments events

theorem behind_concat (session : PoolSession) (events : List (Instant × SessionEvent))
    (event : Instant × SessionEvent) :
    session.behind (events ++ [event]) = ((session.behind events).act event.1 event.2).1 := by
  rw [behind, List.foldl_append]
  rfl

theorem moments_concat (session : PoolSession) (events : List (Instant × SessionEvent))
    (event : Instant × SessionEvent) :
    session.moments (events ++ [event]) =
      session.moments events ++ [⟨session.behind events, event.1, event.2⟩] := by
  induction events generalizing session with
  | nil => rfl
  | cons first events ih => exact congrArg _ (ih _)

/-- Everything that the client wanted done in a session, in order. -/
def effects (settings : PoolSettings) (begun : Instant) (events : List (Instant × SessionEvent)) :
    List Client.Effect :=
  ((Client.unconnected settings).start begun).2 ++
    ((opened settings begun).moments events).flatMap SessionMoment.effects

theorem effects_concat (settings : PoolSettings) (begun : Instant)
    (events : List (Instant × SessionEvent)) (event : Instant × SessionEvent) :
    effects settings begun (events ++ [event]) =
      effects settings begun events ++
        (((opened settings begun).behind events).act event.1 event.2).2 := by
  rw [effects, moments_concat, List.flatMap_append, ← List.append_assoc, List.flatMap_singleton]
  rfl

end PoolSession

end StratumMiner
