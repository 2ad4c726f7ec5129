import Mathlib
import StratumMiner.Proofs.Pool.Fragments
import StratumMiner.Proofs.Pool.Lifecycle

/-!
# Lines that are nothing to a client

A pool may send what a client has no use for: lines that are blank, too long or no message,
requests, answers to nothing that was asked, and notifications that are unknown or cannot be used.
Wherever such a line comes in, everything goes on as if it had not come, whether the client is being
let in or mines; only the log tells of it.
-/

namespace StratumMiner

/-! ## What is noise -/

/-- The methods of notifications that a client may have a use for. -/
def usedMethods : List String :=
  ["mining.notify", "mining.set_difficulty", "mining.set_extranonce", "client.reconnect"]

/-- Whether a message is nothing to a client. -/
inductive Client.Ignores (client : Client) : Message → Prop where
  | request (id : UInt64) (method : String) (params : Json) :
      Client.Ignores client (.request id method params)
  /-- Nothing was asked under this id, or it has been answered or forgotten since. -/
  | response {id : UInt64} (result error : Option Json) (unawaited : client.awaits id = false) :
      Client.Ignores client (.response id result error)
  /-- The method is unknown, or the pool has a message to show. -/
  | unused {method : String} (params : Json) (unused : method ∉ usedMethods) :
      Client.Ignores client (.notification method params)
  | job {params : Json}
      (unusable : ∀ values job, params = .array values → Job.ofNotice values ≠ .ok job) :
      Client.Ignores client (.notification "mining.notify" params)
  | difficulty {params : Json}
      (unusable : ∀ first others value, params = .array (first :: others) →
        first.double? = some value → PoolDifficulty.ofDouble? value = none) :
      Client.Ignores client (.notification "mining.set_difficulty" params)
  | extranonce {params : Json}
      (unusable : ∀ extranonce1 size others subscription,
        params = .array (extranonce1 :: size :: others) →
          Subscription.read extranonce1 size ≠ .ok subscription) :
      Client.Ignores client (.notification "mining.set_extranonce" params)

/-- Whether the bytes of a line are nothing to a client. -/
inductive Client.IsNoise (client : Client) (line : Bytes) : Prop where
  | overlong (long : maxLineLength < line.length)
  | blank (blank : ∀ char ∈ (Line.text line).toList, Blank.isBlank char = true)
  | malformed {fault : Message.Fault}
      (read : Message.read (Blank.trim (Line.text line)) = .error fault)
  | message {message : Message} (read : Message.read (Blank.trim (Line.text line)) = .ok message)
      (ignores : client.Ignores message)

/-- Nothing is left of blanks. -/
theorem Blank.trim_eq_empty {text : String}
    (blank : ∀ char ∈ text.toList, Blank.isBlank char = true) : Blank.trim text = "" := by
  have nothing : text.toList.dropWhile Blank.isBlank = [] := List.dropWhile_eq_nil_iff.mpr blank
  simp [Blank.trim, Blank.trimChars, nothing]

namespace Client

variable {client : Client} {now : Instant} {line : Bytes} {message : Message}

/-- Whether effects are nothing but reports, and none of them of a new stage. -/
def Effect.AreReports (effects : List Effect) : Prop :=
  ∀ effect ∈ effects, effect.message? = none ∧ effect.event? = none ∧ effect.stage? = none

@[simp] theorem Effect.areReports_nil : Effect.AreReports [] := by
  simp [Effect.AreReports]

theorem Effect.areReports_note {note : ClientNote} (plain : (Effect.note note).stage? = none) :
    Effect.AreReports [.note note] := by
  simp [Effect.AreReports, Effect.message?, Effect.event?, plain]

theorem Effect.areReports_append {first second : List Effect} :
    Effect.AreReports (first ++ second) ↔ Effect.AreReports first ∧ Effect.AreReports second :=
  List.forall_mem_append

/-- A notification that is ignored is reported. -/
theorem takeNotification_of_ignores {method : String} {params : Json}
    {report : NotificationFault → ClientNote}
    (ignores : client.Ignores (.notification method params))
    (plain : ∀ fault, (Effect.note (report fault)).stage? = none) :
    ∃ reports, client.takeNotification method params report = (client, reports) ∧
      Effect.AreReports reports := by
  have failed {fault : NotificationFault}
      (reaction : client.notified method params = .failed fault) :
      ∃ reports, client.takeNotification method params report = (client, reports) ∧
        Effect.AreReports reports :=
    ⟨_, by simp only [takeNotification, reaction], Effect.areReports_note (plain fault)⟩
  cases ignores with
  | unused params unused =>
      simp only [usedMethods, List.mem_cons, List.not_mem_nil, or_false, not_or] at unused
      obtain ⟨job, difficulty, extranonce, reconnect⟩ := unused
      by_cases shown : method = "client.show_message"
      · refine ⟨[.note (.poolMessage params)], ?_, Effect.areReports_note rfl⟩
        simp [takeNotification, notified, shown]
      · refine ⟨[.note (.unknownMethod method)], ?_, Effect.areReports_note rfl⟩
        simp [takeNotification, notified, job, difficulty, extranonce, reconnect, shown]
  | job unusable =>
      have reaction : client.notified "mining.notify" params = client.receiveJob params := by
        simp [notified]
      unfold receiveJob at reaction
      split at reaction
      · next values =>
          split at reaction
          · next job read => exact absurd read (unusable values job rfl)
          · exact failed reaction
      · exact failed reaction
  | difficulty unusable =>
      have reaction : client.notified "mining.set_difficulty" params =
          client.receiveDifficulty params := by simp [notified]
      simp only [receiveDifficulty] at reaction
      split at reaction
      · exact failed reaction
      · next value found =>
          split at found
          · next first others =>
              rw [unusable first others value rfl found] at reaction
              exact failed reaction
          · exact absurd found (by simp)
  | extranonce unusable =>
      have reaction : client.notified "mining.set_extranonce" params =
          client.receiveExtranonce params := by simp [notified]
      unfold receiveExtranonce at reaction
      split at reaction
      · next extranonce1 size others =>
          split at reaction
          · exact failed reaction
          · next subscription read =>
              exact absurd read (unusable extranonce1 size others subscription rfl)
      · exact failed reaction

/-- While a client is being let in, it leaves alone what it ignores. -/
theorem stepSetup_of_ignores {id : UInt64}
    {answered : Option Json → Option Json → Client × List Effect}
    (awaits : ∀ other, client.awaits other = (id == other)) (ignores : client.Ignores message) :
    ∃ reports, client.stepSetup now id answered (.message message) = (client, reports) ∧
      Effect.AreReports reports := by
  cases message with
  | request other method params => exact ⟨_, rfl, Effect.areReports_note rfl⟩
  | notification method params => exact takeNotification_of_ignores ignores fun fault => rfl
  | response other result error =>
      cases ignores with
      | response result error unawaited =>
          have different : other ≠ id := by
            rintro rfl
            simp [awaits] at unawaited
          exact ⟨_, if_neg different, Effect.areReports_note rfl⟩

/-- While a client mines, it leaves alone what it ignores. -/
theorem stepMining_of_ignores (mining : client.phase = .mining)
    (ignores : client.Ignores message) :
    ∃ reports, client.stepMining now (.message message) = (client, reports) ∧
      Effect.AreReports reports := by
  cases message with
  | request other method params => exact ⟨_, rfl, Effect.areReports_note rfl⟩
  | notification method params => exact takeNotification_of_ignores ignores fun fault => rfl
  | response other result error =>
      cases ignores with
      | response result error unawaited =>
          have missing : (client.pending.find? fun share => share.id == other) = none := by
            simpa [awaits, mining] using unawaited
          refine ⟨[.note (.unknownResponse other)], ?_, Effect.areReports_note rfl⟩
          simp only [stepMining, receiveAnswer, missing]

theorem step_of_ignores (ignores : client.Ignores message) :
    ∃ reports, client.step now (.message message) = (client, reports) ∧
      Effect.AreReports reports := by
  cases phase : client.phase with
  | unconnected => exact ⟨[], by simp only [step, phase], Effect.areReports_nil⟩
  | ended fault => exact ⟨[], by simp only [step, phase], Effect.areReports_nil⟩
  | subscribing id =>
      obtain ⟨answered, step, -⟩ := step_of_subscribing now phase
      rw [step]
      exact stepSetup_of_ignores (fun other => by simp only [awaits, phase]) ignores
  | authorizing id =>
      obtain ⟨answered, step, -⟩ := step_of_authorizing now phase
      rw [step]
      exact stepSetup_of_ignores (fun other => by simp only [awaits, phase]) ignores
  | mining =>
      simp only [step, phase]
      exact stepMining_of_ignores phase ignores

theorem step_malformed (now : Instant) (client : Client) (detail : String) :
    ∃ reports, client.step now (.malformed detail) = (client, reports) ∧
      Effect.AreReports reports := by
  cases phase : client.phase with
  | unconnected => exact ⟨[], by simp only [step, phase], Effect.areReports_nil⟩
  | ended fault => exact ⟨[], by simp only [step, phase], Effect.areReports_nil⟩
  | subscribing id =>
      obtain ⟨answered, step, -⟩ := step_of_subscribing now phase
      rw [step]
      exact ⟨_, rfl, Effect.areReports_note rfl⟩
  | authorizing id =>
      obtain ⟨answered, step, -⟩ := step_of_authorizing now phase
      rw [step]
      exact ⟨_, rfl, Effect.areReports_note rfl⟩
  | mining =>
      simp only [step, phase]
      exact ⟨_, rfl, Effect.areReports_note rfl⟩

end Client

namespace PoolSession

open Client (Effect)

variable {session : PoolSession} {events : List (Instant × SessionEvent)}

/-- A line that is noise leaves the session as it is, if it is not too long to be heard at all. -/
theorem act_noise {line : Bytes} (now : Instant) (noise : session.client.IsNoise line)
    (short : line.length ≤ maxLineLength) :
    ∃ reports, session.act now (.line (Line.text line)) = (session, reports) ∧
      Effect.AreReports reports := by
  simp only [act, Incoming.ofLine]
  split
  · exact ⟨[], rfl, Effect.areReports_nil⟩
  · next incoming found =>
      split at found
      · exact absurd found (by simp)
      · next visible =>
          obtain rfl := Option.some.inj found
          simp only [told, Incoming.input]
          cases noise with
          | overlong long => exact absurd short (Nat.not_le_of_lt long)
          | blank blank => exact absurd (Blank.trim_eq_empty blank) visible
          | malformed read =>
              obtain ⟨reports, step, plain⟩ := session.client.step_malformed now _
              rw [read, step]
              exact ⟨reports, rfl, plain⟩
          | message read ignores =>
              obtain ⟨reports, step, plain⟩ := @Client.step_of_ignores _ now _ ignores
              rw [read, step]
              exact ⟨reports, rfl, plain⟩

/-- Events that leave the session as it is, one by one, leave it as it is together. -/
theorem behind_of_unchanged
    (unchanged : ∀ event ∈ events, ∃ reports, session.act event.1 event.2 = (session, reports) ∧
      Effect.AreReports reports) :
    session.behind events = session ∧
      Effect.AreReports ((session.moments events).flatMap SessionMoment.effects) := by
  induction events with
  | nil => exact ⟨rfl, Effect.areReports_nil⟩
  | cons event events ih =>
      obtain ⟨reports, act, plain⟩ := unchanged event (List.mem_cons_self)
      obtain ⟨same, others⟩ :=
        ih fun other member => unchanged other (List.mem_cons_of_mem _ member)
      constructor
      · rw [behind, List.foldl_cons, act]
        exact same
      · rw [moments, List.flatMap_cons, act]
        refine Effect.areReports_append.mpr ⟨?_, others⟩
        rw [SessionMoment.effects, act]
        exact plain

theorem behind_append (session : PoolSession) (before after : List (Instant × SessionEvent)) :
    session.behind (before ++ after) = (session.behind before).behind after :=
  List.foldl_append

theorem moments_append (session : PoolSession) (before after : List (Instant × SessionEvent)) :
    session.moments (before ++ after) =
      session.moments before ++ (session.behind before).moments after := by
  induction before generalizing session with
  | nil => rfl
  | cons event before ih => exact congrArg _ (ih _)

end PoolSession

/-! ## The client's end of a connection -/

/-- What happens at the client's end of a connection. -/
inductive LinkEvent where
  /-- A fragment of the stream from the pool comes in. -/
  | bytes (fragment : Bytes)
  /-- The pool closes the connection. -/
  | closed
  /-- A share is queued. -/
  | queue (submission : Submission)
  /-- The client looks for a share in the queue. -/
  | take
  /-- The client is woken. -/
  | wake
  /-- The client looks for shares that have waited too long, whether that is due or not. -/
  | tick
  /-- The miner stops. -/
  | shutdown

namespace LinkEvent

variable {decoder other : LineDecoder} {piece : Bytes}

/-- What happens in the session because of an event, and the decoder behind it. -/
def hear (decoder : LineDecoder) : LinkEvent → List SessionEvent × LineDecoder
  | .bytes fragment =>
      let (lines, decoder) := (decoder.append fragment).decodeAll
      (lines.map .line, decoder)
  | .closed =>
      let (lines, decoder) := decoder.decodeRest
      (lines.map .line ++ [.closed], decoder)
  | .queue submission => ([.queue submission], decoder)
  | .take => ([.take], decoder)
  | .wake => ([.wake], decoder)
  | .tick => ([.tick], decoder)
  | .shutdown => ([.shutdown], decoder)

/-- What is there of a line that goes on behind an event, if `piece` was there before it. -/
def openLine (piece : Bytes) : LinkEvent → Bytes
  | .bytes fragment => Line.openPart (piece ++ fragment)
  | .closed => []
  | .queue _ | .take | .wake | .tick | .shutdown => piece

/-- What happens in the session because of an event, as the line that was open has it. -/
def brings (piece : Bytes) : LinkEvent → List SessionEvent
  | .bytes fragment =>
      (Line.split maxLineLength (Line.closedPart (piece ++ fragment))).map .line
  | .closed => (Line.split maxLineLength piece).map .line ++ [.closed]
  | .queue submission => [.queue submission]
  | .take => [.take]
  | .wake => [.wake]
  | .tick => [.tick]
  | .shutdown => [.shutdown]

/-- What a decoder makes of an event depends on the open line alone. -/
theorem hear_awaits (awaits : decoder.Awaits maxLineLength piece) (event : LinkEvent) :
    (event.hear decoder).1 = event.brings piece ∧
      (event.hear decoder).2.Awaits maxLineLength (event.openLine piece) := by
  cases event with
  | bytes fragment =>
      obtain ⟨lines, behind⟩ := awaits.receive fragment
      exact ⟨congrArg (List.map SessionEvent.line) lines, behind⟩
  | closed =>
      obtain ⟨lines, behind⟩ := awaits.finish
      refine ⟨?_, behind⟩
      rw [brings, ← lines]
      rfl
  | queue | take | wake | tick | shutdown => exact ⟨rfl, awaits⟩

/-- What happens in the session because of a list of events. -/
def heard (decoder : LineDecoder) : List (Instant × LinkEvent) → List (Instant × SessionEvent)
  | [] => []
  | (now, event) :: events =>
      ((event.hear decoder).1.map fun brought => (now, brought)) ++
        heard (event.hear decoder).2 events

/-- What is there of a line that goes on behind a list of events. -/
def openBehind (piece : Bytes) (events : List (Instant × LinkEvent)) : Bytes :=
  events.foldl (fun piece event => event.2.openLine piece) piece

/-- What happens in the session because of a list of events, as the line that was open has it. -/
def brought (piece : Bytes) : List (Instant × LinkEvent) → List (Instant × SessionEvent)
  | [] => []
  | (now, event) :: events =>
      ((event.brings piece).map fun brought => (now, brought)) ++
        brought (event.openLine piece) events

theorem heard_eq_brought (awaits : decoder.Awaits maxLineLength piece)
    (events : List (Instant × LinkEvent)) : heard decoder events = brought piece events := by
  induction events generalizing decoder piece with
  | nil => rfl
  | cons event events ih =>
      obtain ⟨now, event⟩ := event
      obtain ⟨brings, behind⟩ := hear_awaits awaits event
      rw [heard, brought, brings, ih behind]

theorem openBehind_append (piece : Bytes) (before after : List (Instant × LinkEvent)) :
    openBehind piece (before ++ after) = openBehind (openBehind piece before) after :=
  List.foldl_append

theorem brought_append (piece : Bytes) (before after : List (Instant × LinkEvent)) :
    brought piece (before ++ after) =
      brought piece before ++ brought (openBehind piece before) after := by
  induction before generalizing piece with
  | nil => rfl
  | cons event before ih =>
      obtain ⟨now, event⟩ := event
      rw [List.cons_append, brought, brought, ih, List.append_assoc]
      rfl

/-- Fragments that come in one after another. -/
def ofFragments (fragments : List (Instant × Bytes)) : List (Instant × LinkEvent) :=
  fragments.map fun fragment => (fragment.1, .bytes fragment.2)

/-- Fragments bring the lines that end among them. -/
theorem brought_ofFragments (clear : newline ∉ piece) (fragments : List (Instant × Bytes)) :
    (brought piece (ofFragments fragments)).map Prod.snd =
        (Line.split maxLineLength
          (Line.closedPart (piece ++ fragments.flatMap Prod.snd))).map .line ∧
      openBehind piece (ofFragments fragments) =
        Line.openPart (piece ++ fragments.flatMap Prod.snd) := by
  induction fragments generalizing piece with
  | nil =>
      simp [ofFragments, brought, openBehind, Line.closedPart_of_notMem clear,
        Line.openPart_of_notMem clear]
  | cons fragment fragments ih =>
      obtain ⟨now, fragment⟩ := fragment
      obtain ⟨lines, behind⟩ := ih (Line.newline_notMem_openPart (piece ++ fragment))
      rw [List.flatMap_cons, ← List.append_assoc]
      constructor
      · rw [Line.closedPart_append, Line.split_append (Line.closedPart_ended _), List.map_append,
          ← lines]
        simp [ofFragments, brought, brings, openLine, Function.comp_def]
      · rw [Line.openPart_append]
        exact behind

/-- The fragments of one line bring that line, unless it is too long, and leave nothing open. -/
theorem brought_line {fragments : List (Instant × Bytes)} {line : Bytes}
    (whole : fragments.flatMap Prod.snd = line ++ [newline]) (single : newline ∉ line) :
    (∀ event ∈ brought [] (ofFragments fragments),
        event.2 = .line (Line.text line) ∧ line.length ≤ maxLineLength) ∧
      openBehind [] (ofFragments fragments) = [] := by
  obtain ⟨lines, behind⟩ := brought_ofFragments List.not_mem_nil fragments
  rw [whole, List.nil_append] at lines behind
  rw [Line.closedPart_concat, Line.split_append_newline single, Line.split_nil,
    List.append_nil] at lines
  rw [Line.openPart_concat] at behind
  refine ⟨?_, behind⟩
  intro event member
  have brings := List.mem_map_of_mem (f := Prod.snd) member
  rw [lines] at brings
  split at brings
  · next short => exact ⟨by simpa using brings, short⟩
  · exact absurd brings (by simp)

end LinkEvent

namespace PoolSession

open Client (Effect)

/-- Events that leave the session as it is make no difference to what the client does besides
reporting. -/
theorem effects_insert (settings : PoolSettings) (begun : Instant)
    {before inserted : List (Instant × SessionEvent)} (after : List (Instant × SessionEvent))
    (unchanged : ∀ event ∈ inserted, ∃ reports,
      ((opened settings begun).behind before).act event.1 event.2 =
          ((opened settings begun).behind before, reports) ∧ Effect.AreReports reports) :
    (opened settings begun).behind (before ++ inserted ++ after) =
        (opened settings begun).behind (before ++ after) ∧
      ∃ first reports second, Effect.AreReports reports ∧
        effects settings begun (before ++ inserted ++ after) = first ++ reports ++ second ∧
        effects settings begun (before ++ after) = first ++ second := by
  obtain ⟨same, plain⟩ := behind_of_unchanged unchanged
  refine ⟨?_, effects settings begun before, _,
    (((opened settings begun).behind before).moments after).flatMap SessionMoment.effects,
    plain, ?_, ?_⟩
  · rw [behind_append, behind_append, behind_append, same]
  · simp only [effects, moments_append, same, List.flatMap_append, List.append_assoc]
  · simp only [effects, moments_append, List.flatMap_append, List.append_assoc]

/-- What reports are no part of is the same with and without them. -/
theorem filterMap_reports {α : Type} {part : Effect → Option α} {reports : List Effect}
    (none : ∀ effect ∈ reports, part effect = none) (first second : List Effect) :
    (first ++ reports ++ second).filterMap part = (first ++ second).filterMap part := by
  rw [List.filterMap_append, List.filterMap_append, List.filterMap_append,
    List.filterMap_eq_nil_iff.mpr none, List.append_nil]

/-- Wherever a line of noise comes in, in whatever fragments, everything goes on as if it had not:
the session behind any further events is the same, and so are the messages that the client writes,
its events and the stages that it shows. -/
theorem noise_has_no_effect (settings : PoolSettings) (begun : Instant)
    (before after : List (Instant × LinkEvent)) (fragments : List (Instant × Bytes)) {line : Bytes}
    (between : LinkEvent.openBehind [] before = [])
    (whole : fragments.flatMap Prod.snd = line ++ [newline]) (single : newline ∉ line)
    (noise : ((opened settings begun).behind
      (LinkEvent.heard (LineDecoder.empty maxLineLength) before)).client.IsNoise line) :
    let quiet := LinkEvent.heard (LineDecoder.empty maxLineLength) (before ++ after)
    let noisy := LinkEvent.heard (LineDecoder.empty maxLineLength)
      (before ++ LinkEvent.ofFragments fragments ++ after)
    (opened settings begun).behind noisy = (opened settings begun).behind quiet ∧
      (effects settings begun noisy).filterMap Effect.message? =
        (effects settings begun quiet).filterMap Effect.message? ∧
      (effects settings begun noisy).filterMap Effect.event? =
        (effects settings begun quiet).filterMap Effect.event? ∧
      (effects settings begun noisy).filterMap Effect.stage? =
        (effects settings begun quiet).filterMap Effect.stage? := by
  have heard := LinkEvent.heard_eq_brought (LineDecoder.empty_awaits maxLineLength)
  obtain ⟨lines, behind⟩ := LinkEvent.brought_line whole single
  simp only [heard, LinkEvent.brought_append, LinkEvent.openBehind_append, between,
    behind] at noise ⊢
  obtain ⟨same, first, reports, second, plain, noisy, quiet⟩ :=
    effects_insert settings begun (LinkEvent.brought [] after) fun event member => by
      obtain ⟨its, short⟩ := lines event member
      rw [its]
      exact act_noise event.1 noise short
  refine ⟨same, ?_, ?_, ?_⟩ <;> rw [noisy, quiet]
  · exact filterMap_reports (fun effect member => (plain effect member).1) first second
  · exact filterMap_reports (fun effect member => (plain effect member).2.1) first second
  · exact filterMap_reports (fun effect member => (plain effect member).2.2) first second

/-- A text as it comes from the pool. -/
def spelled (text : String) : Bytes :=
  Utf8.encode text ++ [newline]

def grantText : String := "\x7b\"id\":1,\"result\":[[],\"08\",4],\"error\":null\x7d"

/-- A client that the pool lets in. -/
def letIn : PoolSettings :=
  { url := "stratum+tcp://pool:3333", username := "u", password := "x", userAgent := "miner",
    connectTimeout := 10 }

/-- The pool grants the subscription, and the grant comes a second time in two fragments before the
user is authorized. -/
theorem noise_has_no_effect_sample :
    let before : List (Instant × LinkEvent) := [(0, .bytes (spelled grantText))]
    let fragments : List (Instant × Bytes) :=
      [(1, (spelled grantText).take 20), (2, (spelled grantText).drop 20)]
    let after : List (Instant × LinkEvent) :=
      [(3, .bytes (spelled "\x7b\"id\":2,\"result\":true,\"error\":null\x7d"))]
    LinkEvent.openBehind [] before = [] ∧
      fragments.flatMap Prod.snd = Utf8.encode grantText ++ [newline] ∧
      newline ∉ Utf8.encode grantText ∧
      ((opened letIn 0).behind
        (LinkEvent.heard (LineDecoder.empty maxLineLength) before)).client.IsNoise
          (Utf8.encode grantText) ∧
      ((opened letIn 0).behind (LinkEvent.heard (LineDecoder.empty maxLineLength)
        (before ++ LinkEvent.ofFragments fragments ++ after))).client.takesShares = true := by
  intro before fragments after
  have between : LinkEvent.openBehind [] before = [] := by decide +kernel
  have whole : fragments.flatMap Prod.snd = Utf8.encode grantText ++ [newline] := by
    decide +kernel
  have single : newline ∉ Utf8.encode grantText := by decide +kernel
  have noise : ((opened letIn 0).behind
      (LinkEvent.heard (LineDecoder.empty maxLineLength) before)).client.IsNoise
        (Utf8.encode grantText) := by
    have read : Message.read (Blank.trim (Line.text (Utf8.encode grantText))) =
        .ok (.response 1 (some (.array [.array [], .string "08", .number (.natural 4)])) none) :=
      rfl
    refine .message read (.response _ _ ?_)
    decide +kernel
  refine ⟨between, whole, single, noise, ?_⟩
  rw [(noise_has_no_effect letIn 0 before after fragments between whole single noise).1]
  decide +kernel

end PoolSession

end StratumMiner
