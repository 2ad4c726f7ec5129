import Mathlib
import StratumMiner.Proofs.Pool.Session
import StratumMiner.Proofs.Text.HexReading

/-!
# How far a session comes

A session goes one way: the client subscribes, then authorizes its user, then hands in shares, and
at any of these points the session may end.  How far it has come is all that matters for the stages
that it shows, the requests that it writes and the landmarks among its events.  It goes on only for
answers that the pool gives to these requests, in this order.
-/

namespace StratumMiner

/-- How far a session has come. -/
inductive SessionProgress where
  /-- The client has asked for a subscription. -/
  | asked
  /-- The pool has granted one, and the client has asked for authorization. -/
  | granted (subscription : Subscription)
  /-- The pool has authorized the user, and the client has handed in these shares. -/
  | mining (subscription : Subscription) (taken : List Submission)

/-- The request for a subscription. -/
def subscribeRequest (settings : PoolSettings) : Message :=
  .request 1 "mining.subscribe" (.array [.string settings.userAgent])

/-- The request for authorization. -/
def authorizeRequest (settings : PoolSettings) : Message :=
  .request 2 "mining.authorize" (.array [.string settings.username, .string settings.password])

/-- The requests by which shares are handed in, under consecutive ids from three on. -/
def submitRequests (submissions : List Submission) : List Message :=
  submissions.zipIdx.map fun (submission, index) =>
    .request (UInt64.ofNat (index + 3)) "mining.submit" submission.toJson

theorem submitRequests_concat (submissions : List Submission) (submission : Submission) :
    submitRequests (submissions ++ [submission]) =
      submitRequests submissions ++
        [.request (UInt64.ofNat (submissions.length + 3)) "mining.submit" submission.toJson] := by
  simp [submitRequests, List.zipIdx_append]

namespace SessionProgress

/-- The stages that have been shown. -/
def stages : SessionProgress → List PoolStage
  | .asked => [.connecting]
  | .granted _ => [.connecting, .subscribed]
  | .mining _ _ => [.connecting, .subscribed, .authorized, .mining]

/-- The requests that have been written. -/
def requests (settings : PoolSettings) : SessionProgress → List Message
  | .asked => [subscribeRequest settings]
  | .granted _ => [subscribeRequest settings, authorizeRequest settings]
  | .mining _ taken =>
      [subscribeRequest settings, authorizeRequest settings] ++ submitRequests taken

/-- The events that mark how far the session has come. -/
def landmarks : SessionProgress → List PoolEvent
  | .asked => []
  | .granted subscription => [.subscribed subscription]
  | .mining subscription _ => [.subscribed subscription, .authorized]

theorem length_requests_mining (settings : PoolSettings) (subscription : Subscription)
    (taken : List Submission) :
    (requests settings (.mining subscription taken)).length = taken.length + 2 := by
  simp [requests, submitRequests]

/-- The shares that have been handed in. -/
def taken : SessionProgress → List Submission
  | .asked | .granted _ => []
  | .mining _ taken => taken

/-- What a client at this point is doing. -/
def phase : SessionProgress → ClientPhase
  | .asked => .subscribing 1
  | .granted _ => .authorizing 2
  | .mining _ _ => .mining

/-- The stage that a client at this point is in. -/
def stage : SessionProgress → PoolStage
  | .asked => .connecting
  | .granted _ => .subscribed
  | .mining _ _ => .mining

end SessionProgress

namespace PoolAnswer

/-- Whether an answer grants a subscription. -/
def Grants (answer : PoolAnswer) (subscription : Subscription) : Prop :=
  answer.id = 1 ∧ Client.readSubscription answer.result answer.error = .ok subscription

/-- Whether an answer bears no error, a first extranonce in hexadecimal and, as the size of the
second one, a number from one to eight. -/
def Subscribes (answer : PoolAnswer) : Prop :=
  answer.id = 1 ∧ answer.error = none ∧
    ∃ (first : Json) (extranonce1 : String) (size : UInt64) (rest : List Json),
      answer.result =
          some (.array (first :: .string extranonce1 :: .number (.natural size) :: rest)) ∧
        (HexReading.bytes? extranonce1.toList).isSome = true ∧ 1 ≤ size.toNat ∧ size.toNat ≤ 8

theorem read_eq_ok {extranonce1 size : Json} {subscription : Subscription}
    (read : Subscription.read extranonce1 size = .ok subscription) :
    ∃ (text : String) (number : UInt64), extranonce1 = .string text ∧
      size = .number (.natural number) ∧ (HexReading.bytes? text.toList).isSome = true ∧
      1 ≤ number.toNat ∧ number.toNat ≤ 8 := by
  unfold Subscription.read at read
  split at read
  · next text =>
      split at read
      · next bytes decoded =>
          unfold Subscription.readSize at read
          split at read
          · next number =>
              split at read
              · next valid =>
                  refine ⟨text, number, rfl, rfl, ?_, valid⟩
                  rw [HexReading.bytes?_of_decode decoded, Option.isSome_some]
              · cases read
          · cases read
      · cases read
  · cases read

theorem Grants.subscribes {answer : PoolAnswer} {subscription : Subscription}
    (grants : answer.Grants subscription) : answer.Subscribes := by
  obtain ⟨first, read⟩ := grants
  unfold Client.readSubscription at read
  split at read
  · cases read
  · cases read
  · next head extranonce1 size rest result error =>
      split at read
      · next readEq =>
          obtain ⟨text, number, rfl, rfl, hex, bounds⟩ := read_eq_ok readEq
          exact ⟨first, error, head, text, number, rest, result, hex, bounds⟩
      · cases read
  · cases read
  · cases read

/-- Whether an answer authorizes the user. -/
def Authorizes (answer : PoolAnswer) : Prop :=
  answer.id = 2 ∧ answer.result = some (.bool true) ∧ answer.error = none

theorem authorizationFault?_eq_none {result error : Option Json} :
    Client.authorizationFault? result error = none ↔
      result = some (.bool true) ∧ error = none := by
  unfold Client.authorizationFault?
  split <;> simp_all

end PoolAnswer

namespace SessionProgress

/-- The pool has given the answers that lead this far. -/
def Earned (answers : List PoolAnswer) : SessionProgress → Prop
  | .asked => True
  | .granted subscription => ∃ grant ∈ answers, grant.Grants subscription
  | .mining subscription _ =>
      ∃ grant authorization, [grant, authorization].Sublist answers ∧
        grant.Grants subscription ∧ authorization.Authorizes

/-- The pool has not given the answers that lead on. -/
def Waits (answers : List PoolAnswer) : SessionProgress → Prop
  | .asked => ∀ answer ∈ answers, ∀ subscription, ¬answer.Grants subscription
  | .granted _ => ∀ grant authorization, [grant, authorization].Sublist answers →
      ∀ subscription, grant.Grants subscription → ¬authorization.Authorizes
  | .mining _ _ => True

theorem Earned.append {progress : SessionProgress} {answers : List PoolAnswer}
    (earned : progress.Earned answers)
    (later : List PoolAnswer) : progress.Earned (answers ++ later) := by
  cases progress with
  | asked => exact trivial
  | granted subscription =>
      obtain ⟨grant, member, grants⟩ := earned
      exact ⟨grant, List.mem_append_left _ member, grants⟩
  | mining subscription taken =>
      obtain ⟨grant, authorization, given, grants⟩ := earned
      exact ⟨grant, authorization, given.trans (List.sublist_append_left _ _), grants⟩

/-- The client has asked for authorization only if the pool has granted a subscription. -/
theorem Earned.subscribes {progress : SessionProgress} {answers : List PoolAnswer}
    (earned : progress.Earned answers) {settings : PoolSettings}
    (asks : authorizeRequest settings ∈ progress.requests settings) :
    ∃ grant ∈ answers, grant.Subscribes := by
  cases progress with
  | asked => simp [requests, authorizeRequest, subscribeRequest] at asks
  | granted subscription =>
      obtain ⟨grant, member, grants⟩ := earned
      exact ⟨grant, member, grants.subscribes⟩
  | mining subscription taken =>
      obtain ⟨grant, authorization, given, grants, -⟩ := earned
      exact ⟨grant, given.subset (by simp), grants.subscribes⟩

/-- The client has handed in shares only if the pool has authorized the user after that. -/
theorem Earned.authorizes {progress : SessionProgress} {answers : List PoolAnswer}
    (earned : progress.Earned answers) {settings : PoolSettings} {id : UInt64} {params : Json}
    (submits : .request id "mining.submit" params ∈ progress.requests settings) :
    ∃ grant authorization, [grant, authorization].Sublist answers ∧ grant.Subscribes ∧
      authorization.Authorizes := by
  cases progress with
  | asked | granted => simp [requests, authorizeRequest, subscribeRequest] at submits
  | mining subscription taken =>
      obtain ⟨grant, authorization, given, grants, authorizes⟩ := earned
      exact ⟨grant, authorization, given, grants.subscribes, authorizes⟩

theorem stages_prefix (progress : SessionProgress) :
    progress.stages ≠ [] ∧
      progress.stages <+: [.connecting, .subscribed, .authorized, .mining] := by
  cases progress <;> simp [stages]

theorem landmarks_prefix (progress : SessionProgress) :
    ∃ subscription, progress.landmarks <+: [.subscribed subscription, .authorized] := by
  cases progress with
  | asked => exact ⟨⟨[], 1, by decide, by decide⟩, List.nil_prefix⟩
  | granted subscription => exact ⟨subscription, [.authorized], rfl⟩
  | mining subscription taken => exact ⟨subscription, List.prefix_rfl⟩

end SessionProgress

namespace Client.Effect

/-- The message that is to be written. -/
def message? : Effect → Option Message
  | .write message => some message
  | _ => none

/-- The event that is to be emitted. -/
def event? : Effect → Option PoolEvent
  | .emit event => some event
  | _ => none

/-- The stage that is shown. -/
def stage? : Effect → Option PoolStage
  | .note (.stageChanged _ stage) => some stage
  | _ => none

end Client.Effect

/-- Whether an event marks how far a session has come. -/
def PoolEvent.isLandmark : PoolEvent → Bool
  | .subscribed _ | .authorized | .disconnected => true
  | _ => false

namespace PoolSession

open Client (Effect)

/-- Whether the session is over. -/
def isOver (session : PoolSession) : Bool :=
  session.client.outcome?.isSome

/-- What a session that is over has shown last. -/
def ending {α : Type} (session : PoolSession) (last : α) : List α :=
  if session.isOver then [last] else []

/-- The client of a session that has come this far and is not over. -/
structure Fits (settings : PoolSettings) (progress : SessionProgress) (client : Client) :
    Prop where
  owner : client.settings = settings
  phase : client.phase = progress.phase
  stage : client.stage = progress.stage
  nextId : client.nextId = UInt64.ofNat ((progress.requests settings).length + 1)

/-- What has been seen of a session that has come this far. -/
structure Follows (settings : PoolSettings) (progress : SessionProgress)
    (events : List SessionEvent) (effects : List Effect) (session : PoolSession) : Prop where
  stages : effects.filterMap Effect.stage? = progress.stages ++ session.ending .disconnected
  requests : effects.filterMap Effect.message? = progress.requests settings
  landmarks : ∃ others, effects.filterMap Effect.event? = others ++ session.ending .disconnected ∧
    others.filter PoolEvent.isLandmark = progress.landmarks
  queue : events.filterMap SessionEvent.queued? = progress.taken ++ session.waiting
  earned : progress.Earned (events.filterMap SessionEvent.answer?)
  ended : (∃ event ∈ events, event.isEnd = true) → session.isOver = true
  client : session.isOver = false → Fits settings progress session.client
  waits : session.isOver = false → progress.Waits (events.filterMap SessionEvent.answer?)

theorem opened_follows (settings : PoolSettings) (begun : Instant) :
    Follows settings .asked [] ((Client.unconnected settings).start begun).2
      (opened settings begun) where
  stages := rfl
  requests := rfl
  landmarks := ⟨[], rfl, rfl⟩
  queue := rfl
  earned := trivial
  ended := by simp
  client := fun _ => ⟨rfl, rfl, rfl, rfl⟩
  waits := fun _ => by simp [SessionProgress.Waits]

/-! ## A turn -/

section Asides

variable {asides : List Effect} (plain : ∀ effect ∈ asides, effect.isAside = true)
include plain

theorem filterMap_stage?_asides : asides.filterMap Effect.stage? = [] := by
  apply List.filterMap_eq_nil_iff.mpr
  intro effect member
  have aside := plain effect member
  cases effect with
  | note note => cases note <;> first | rfl | exact absurd aside (by simp [Effect.isAside])
  | emit event => rfl
  | write message => rfl

theorem filterMap_message?_asides : asides.filterMap Effect.message? = [] := by
  apply List.filterMap_eq_nil_iff.mpr
  intro effect member
  have aside := plain effect member
  cases effect with
  | note note => rfl
  | emit event => rfl
  | write message => exact absurd aside (by simp [Effect.isAside])

theorem filter_isLandmark_asides :
    (asides.filterMap Effect.event?).filter PoolEvent.isLandmark = [] := by
  apply List.filter_eq_nil_iff.mpr
  intro event member
  obtain ⟨effect, inAsides, its⟩ := List.mem_filterMap.mp member
  have aside := plain effect inAsides
  cases effect with
  | note note => exact absurd its (by simp [Effect.event?])
  | write message => exact absurd its (by simp [Effect.event?])
  | emit emitted =>
      obtain rfl := Option.some.inj its
      cases emitted with
      | newJob | difficultyChanged | extranonceChanged => simp [PoolEvent.isLandmark]
      | subscribed | authorized | shareAccepted | shareRejected | disconnected =>
          exact absurd aside (by simp [Effect.isAside])

end Asides

variable {settings : PoolSettings} {progress : SessionProgress} {events : List SessionEvent}
  {effects more : List Effect} {session after : PoolSession} {event : SessionEvent} {now : Instant}

theorem isOver_of_phase (phase : after.client.phase = session.client.phase) :
    after.isOver = session.isOver := by
  simp only [isOver, Client.outcome?, phase]

theorem isOver_of_isGoing (going : session.isGoing = true) : session.isOver = false := by
  cases phase : session.client.phase with
  | subscribing | authorizing | mining => simp only [isOver, Client.outcome?, phase, Option.isSome]
  | unconnected | ended => simp [isGoing, phase] at going

theorem filterMap_concat {α β : Type} (value? : α → Option β) (values : List α) (last : α) :
    (values ++ [last]).filterMap value? = values.filterMap value? ++ (value? last).toList := by
  rw [List.filterMap_append, List.filterMap_cons]
  cases value? last <;> rfl

theorem Follows.ended_concat (follows : Follows settings progress events effects session)
    (lasting : session.isOver = false → event.isEnd = false) :
    (∃ other ∈ events ++ [event], other.isEnd = true) → session.isOver = true := by
  rintro ⟨other, member, ends⟩
  rcases List.mem_append.mp member with earlier | latest
  · exact follows.ended ⟨other, earlier, ends⟩
  · rw [List.mem_singleton.mp latest] at ends
    by_contra going
    rw [Bool.not_eq_true] at going
    exact absurd (ends.symm.trans (lasting going)) (by simp)

/-- A turn in which a session comes no further. -/
theorem Follows.stay (follows : Follows settings progress events effects session)
    (owner : after.client.settings = session.client.settings)
    (phase : after.client.phase = session.client.phase)
    (stage : after.client.stage = session.client.stage)
    (nextId : after.client.nextId = session.client.nextId)
    (stages : more.filterMap Effect.stage? = [])
    (messages : more.filterMap Effect.message? = [])
    (landmarks : (more.filterMap Effect.event?).filter PoolEvent.isLandmark = [])
    (silent : session.isOver = true → more = [])
    (queue : after.waiting = session.waiting ++ event.queued?.toList)
    (lasting : session.isOver = false → event.isEnd = false)
    (waits : session.isOver = false → progress.Waits
      (events.filterMap SessionEvent.answer? ++ event.answer?.toList)) :
    Follows settings progress (events ++ [event]) (effects ++ more) after := by
  have same := isOver_of_phase phase
  have asWas {α : Type} (last : α) : after.ending last = session.ending last := by
    rw [ending, same, ending]
  constructor
  · rw [List.filterMap_append, stages, List.append_nil, follows.stages, asWas]
  · rw [List.filterMap_append, messages, List.append_nil, follows.requests]
  · obtain ⟨others, emitted, marks⟩ := follows.landmarks
    cases ended : session.isOver with
    | true =>
        refine ⟨others, ?_, marks⟩
        rw [silent ended, List.append_nil, emitted, asWas]
    | false =>
        refine ⟨others ++ more.filterMap Effect.event?, ?_, ?_⟩
        · rw [asWas, ending, ended]
          rw [ending, ended] at emitted
          simpa [List.filterMap_append] using emitted
        · rw [List.filter_append, landmarks, List.append_nil, marks]
  · rw [filterMap_concat, follows.queue, List.append_assoc, queue]
  · rw [filterMap_concat]
    exact follows.earned.append _
  · rw [same]
    exact follows.ended_concat lasting
  · intro going
    rw [same] at going
    obtain ⟨wasOwner, wasPhase, wasStage, wasNext⟩ := follows.client going
    exact ⟨owner.trans wasOwner, phase.trans wasPhase, stage.trans wasStage, nextId.trans wasNext⟩
  · intro going
    rw [same] at going
    rw [filterMap_concat]
    exact waits going

theorem plain_of_answer {answer : PoolAnswer} (answered : event.answer? = some answer) :
    event.isEnd = false ∧ event.queued? = none := by
  cases event with
  | line text => exact ⟨rfl, rfl⟩
  | closed | queue | take | wake | tick | shutdown => simp [SessionEvent.answer?] at answered

/-- A client that goes on is at the point where its progress has it. -/
theorem Follows.point (follows : Follows settings progress events effects session)
    (going : session.isGoing = true) : Fits settings progress session.client :=
  follows.client (isOver_of_isGoing going)

/-- A session that is not over goes on. -/
theorem Follows.isGoing_of (follows : Follows settings progress events effects session)
    (lasts : session.isOver = false) : session.isGoing = true := by
  have phase := (follows.client lasts).phase
  cases progress <;> simp only [isGoing, phase, SessionProgress.phase]

theorem pair_sublist_concat {α : Type} {first second last : α} {values : List α}
    (pair : [first, second].Sublist (values ++ [last])) :
    [first, second].Sublist values ∨ first ∈ values ∧ second = last := by
  obtain ⟨early, late, split, inValues, inLast⟩ := List.sublist_append_iff.mp pair
  rcases List.sublist_singleton.mp inLast with rfl | rfl
  · rw [List.append_nil] at split
    exact .inl (split ▸ inValues)
  · have ends : [first] ++ [second] = early ++ [last] := split
    obtain ⟨rfl, same⟩ := List.append_inj' ends rfl
    exact .inr ⟨List.singleton_sublist.mp inValues, List.singleton_inj.mp same⟩

/-- An answer that the client does not await leads no further. -/
theorem Follows.waits_unawaited (follows : Follows settings progress events effects session)
    (unawaited : ∀ answer, event.answer? = some answer →
      session.client.awaits answer.id = false)
    (lasts : session.isOver = false) :
    progress.Waits (events.filterMap SessionEvent.answer? ++ event.answer?.toList) := by
  have before := follows.waits lasts
  have phase := (follows.client lasts).phase
  cases its : event.answer? with
  | none => rwa [Option.toList_none, List.append_nil]
  | some answer =>
      have other := unawaited answer its
      rw [Option.toList_some]
      cases progress with
      | asked =>
          intro given member subscription grants
          rcases List.mem_append.mp member with earlier | latest
          · exact before given earlier subscription grants
          · rw [List.mem_singleton.mp latest] at grants
            simp [Client.awaits, phase, SessionProgress.phase, grants.1] at other
      | granted subscription =>
          intro grant authorization given subscription grants authorizes
          rcases pair_sublist_concat given with earlier | ⟨-, rfl⟩
          · exact before grant authorization earlier subscription grants authorizes
          · simp [Client.awaits, phase, SessionProgress.phase, authorizes.1] at other
      | mining subscription taken => exact trivial

/-- A session comes to its end. -/
theorem Follows.finish {asides : List Effect} {fault : Option PoolFault}
    (follows : Follows settings progress events effects session)
    (going : session.isGoing = true) (plain : ∀ effect ∈ asides, effect.isAside = true)
    (unqueued : event.queued? = none) :
    Follows settings progress (events ++ [event])
      (effects ++ (asides ++ (session.client.finish fault).2))
      { session with client := (session.client.finish fault).1 } := by
  have lasts : session.isOver = false := isOver_of_isGoing going
  have shown : session.client.stage ≠ .disconnected := by
    rw [(follows.point going).stage]
    cases progress <;> simp [SessionProgress.stage]
  have done : (session.client.finish fault).2 =
      [.note (.stageChanged session.client.stage .disconnected), .emit .disconnected] := by
    simp [Client.finish, Client.enter, shown]
  have wasOpen {α : Type} (last : α) : session.ending last = [] := by
    simp [ending, lasts]
  rw [done]
  constructor
  · rw [List.filterMap_append, List.filterMap_append, filterMap_stage?_asides plain,
      follows.stages, wasOpen, List.append_nil]
    rfl
  · rw [List.filterMap_append, List.filterMap_append, filterMap_message?_asides plain,
      follows.requests]
    exact List.append_nil _
  · obtain ⟨others, emitted, marks⟩ := follows.landmarks
    refine ⟨others ++ asides.filterMap Effect.event?, ?_, ?_⟩
    · rw [List.filterMap_append, List.filterMap_append, emitted, wasOpen, List.append_nil,
        List.append_assoc]
      rfl
    · rw [List.filter_append, filter_isLandmark_asides plain, List.append_nil, marks]
  · rw [filterMap_concat, unqueued, Option.toList_none, List.append_nil, follows.queue]
  · rw [filterMap_concat]
    exact follows.earned.append _
  · exact fun _ => rfl
  · exact fun lasts => absurd lasts (by simp [isOver, Client.finish, Client.outcome?])
  · exact fun lasts => absurd lasts (by simp [isOver, Client.finish, Client.outcome?])

/-- A session goes on from one point to the next. -/
theorem Follows.advance {next : SessionProgress}
    (follows : Follows settings progress events effects session)
    (going : session.isGoing = true)
    (stages : next.stages = progress.stages ++ more.filterMap Effect.stage?)
    (requests : next.requests settings =
      progress.requests settings ++ more.filterMap Effect.message?)
    (landmarks : next.landmarks =
      progress.landmarks ++ (more.filterMap Effect.event?).filter PoolEvent.isLandmark)
    (queue : progress.taken ++ session.waiting ++ event.queued?.toList =
      next.taken ++ after.waiting)
    (lasting : event.isEnd = false) (fits : Fits settings next after.client)
    (earned : next.Earned (events.filterMap SessionEvent.answer? ++ event.answer?.toList))
    (waits : next.Waits (events.filterMap SessionEvent.answer? ++ event.answer?.toList)) :
    Follows settings next (events ++ [event]) (effects ++ more) after := by
  have lasts : session.isOver = false := isOver_of_isGoing going
  have stillLasts : after.isOver = false := by
    have phase := fits.phase
    cases next <;> simp only [isOver, Client.outcome?, phase, SessionProgress.phase, Option.isSome]
  have unended {α : Type} (last : α) : session.ending last = [] ∧ after.ending last = [] := by
    simp [ending, lasts, stillLasts]
  constructor
  · rw [List.filterMap_append, follows.stages, (unended _).1, (unended _).2, stages,
      List.append_nil, List.append_nil]
  · rw [List.filterMap_append, follows.requests, requests]
  · obtain ⟨others, emitted, marks⟩ := follows.landmarks
    refine ⟨others ++ more.filterMap Effect.event?, ?_, ?_⟩
    · rw [List.filterMap_append, emitted, (unended _).1, (unended _).2, List.append_nil,
        List.append_nil]
    · rw [List.filter_append, marks, landmarks]
  · rw [filterMap_concat, follows.queue, queue]
  · rw [filterMap_concat]
    exact earned
  · rw [stillLasts, ← lasts]
    exact follows.ended_concat fun _ => lasting
  · exact fun _ => fits
  · rw [filterMap_concat]
    exact fun _ => waits

/-- The pool grants a subscription. -/
theorem Follows.grant {answer : PoolAnswer} {subscription : Subscription}
    (follows : Follows settings progress events effects session)
    (waits : session.client.phase = .subscribing answer.id)
    (answered : event.answer? = some answer)
    (grants : Client.readSubscription answer.result answer.error = .ok subscription) :
    Follows settings (.granted subscription) (events ++ [event])
      (effects ++ (Client.subscribed now session.client subscription).2)
      { session with client := (Client.subscribed now session.client subscription).1 } := by
  have going : session.isGoing = true := by simp only [isGoing, waits]
  obtain ⟨owner, phase, stage, nextId⟩ := follows.point going
  have asked : ClientPhase.subscribing answer.id = progress.phase := waits.symm.trans phase
  obtain ⟨lasting, unqueued⟩ := plain_of_answer answered
  cases progress with
  | granted | mining => exact absurd asked (by simp [SessionProgress.phase])
  | asked =>
      have first : answer.id = 1 := ClientPhase.subscribing.inj asked
      have stage : session.client.stage = .connecting := stage
      have nextId : session.client.nextId = 2 := nextId
      have done : (Client.subscribed now session.client subscription).2 =
          [.note (.stageChanged .connecting .subscribed),
            .note (.subscribed settings.url subscription), .emit (.subscribed subscription),
            .write (authorizeRequest settings)] := by
        simp [Client.subscribed, Client.enter, Client.request, stage, nextId, owner,
          authorizeRequest]
      rw [done]
      refine follows.advance going rfl rfl rfl ?_ lasting ⟨owner, ?_, rfl, ?_⟩ ?_ ?_
      · rw [unqueued]
        exact List.append_nil _
      · exact congrArg ClientPhase.authorizing nextId
      · exact congrArg (· + 1) nextId
      · exact ⟨answer, by simp [answered], first, grants⟩
      · intro grant authorization given other granting authorizes
        rw [answered] at given
        rcases pair_sublist_concat given with earlier | ⟨-, rfl⟩
        · exact follows.waits (isOver_of_isGoing going) grant (earlier.subset (by simp)) other
            granting
        · exact absurd (first.symm.trans authorizes.1) (by decide)

/-- The pool authorizes the user. -/
theorem Follows.authorize {answer : PoolAnswer}
    (follows : Follows settings progress events effects session)
    (waits : session.client.phase = .authorizing answer.id)
    (answered : event.answer? = some answer)
    (grants : Client.authorizationFault? answer.result answer.error = none) :
    ∃ subscription, Follows settings (.mining subscription []) (events ++ [event])
      (effects ++ (Client.authorized now session.client).2)
      { session with client := (Client.authorized now session.client).1 } := by
  have going : session.isGoing = true := by simp only [isGoing, waits]
  obtain ⟨owner, phase, stage, nextId⟩ := follows.point going
  have asked : ClientPhase.authorizing answer.id = progress.phase := waits.symm.trans phase
  obtain ⟨lasting, unqueued⟩ := plain_of_answer answered
  cases progress with
  | asked | mining => exact absurd asked (by simp [SessionProgress.phase])
  | granted subscription =>
      have second : answer.id = 2 := ClientPhase.authorizing.inj asked
      have stage : session.client.stage = .subscribed := stage
      have done : (Client.authorized now session.client).2 =
          [.note (.stageChanged .subscribed .authorized), .note (.authorized settings.username),
            .emit .authorized, .note (.stageChanged .authorized .mining)] := by
        simp [Client.authorized, Client.enter, stage, owner]
      rw [done]
      refine ⟨subscription, follows.advance going rfl ?_ rfl ?_ lasting ⟨owner, rfl, rfl, nextId⟩ ?_
        trivial⟩
      · rfl
      · rw [unqueued]
        exact List.append_nil _
      · obtain ⟨grant, member, granting⟩ := follows.earned
        refine ⟨grant, answer, ?_, granting, second,
          PoolAnswer.authorizationFault?_eq_none.mp grants⟩
        rw [answered]
        exact (List.singleton_sublist.mpr member).append (.refl [answer])

/-- The client hands in a share. -/
theorem Follows.submit {submission : Submission} {others : List Submission}
    (follows : Follows settings progress events effects session)
    (mining : session.client.phase = .mining) (first : session.waiting = submission :: others) :
    ∃ subscription taken, Follows settings (.mining subscription taken) (events ++ [.take])
      (effects ++ (Client.submit now session.client submission).2)
      { client := (Client.submit now session.client submission).1, waiting := others } := by
  have going : session.isGoing = true := by simp only [isGoing, mining]
  obtain ⟨owner, phase, stage, nextId⟩ := follows.point going
  have busy : ClientPhase.mining = progress.phase := mining.symm.trans phase
  cases progress with
  | asked | granted => exact absurd busy (by simp [SessionProgress.phase])
  | mining subscription taken =>
      have nextId : session.client.nextId = UInt64.ofNat (taken.length + 3) := by
        rw [nextId, SessionProgress.length_requests_mining]
      have done : (Client.submit now session.client submission).2 =
          [.note (.submitting submission.jobId submission.nonce),
            .write (.request (UInt64.ofNat (taken.length + 3)) "mining.submit"
              submission.toJson)] := by
        simp [Client.submit, Client.request, nextId]
      rw [done]
      refine ⟨subscription, taken ++ [submission], follows.advance going rfl ?_ rfl ?_ rfl
        ⟨owner, mining, stage, ?_⟩ ?_ trivial⟩
      · simp only [SessionProgress.requests, submitRequests_concat, List.append_assoc]
        rfl
      · simp [SessionProgress.taken, first, SessionEvent.queued?]
      · rw [SessionProgress.length_requests_mining, List.length_append]
        exact (congrArg (· + 1) nextId).trans (UInt64.ofNat_add _ 1).symm
      · exact follows.earned.append _

/-- Nothing more is waited for by a client that mines. -/
theorem Follows.waits_mining (follows : Follows settings progress events effects session)
    (mining : session.client.phase = .mining) {answers : List PoolAnswer}
    (lasts : session.isOver = false) : progress.Waits answers := by
  have busy : ClientPhase.mining = progress.phase := mining.symm.trans (follows.client lasts).phase
  cases progress with
  | asked | granted => exact absurd busy (by simp [SessionProgress.phase])
  | mining => exact trivial

theorem phase_of_takesShares (takes : session.client.takesShares = true) :
    session.client.phase = .mining := by
  cases phase : session.client.phase with
  | mining => rfl
  | unconnected | subscribing | authorizing | ended => simp [Client.takesShares, phase] at takes

theorem filter_isLandmark_verdict (share : PendingShare) (latency : Duration)
    (result error : Option Json) :
    ([Effect.emit (Client.verdict share latency result error)].filterMap Effect.event?).filter
      PoolEvent.isLandmark = [] := by
  simp only [List.filterMap_cons, Effect.event?, List.filterMap_nil, Client.verdict]
  split <;> rfl

/-- Whatever happens, a session follows its progress. -/
theorem Follows.turn (follows : Follows settings progress events effects session)
    (turn : session.Turn now event after more) :
    ∃ progress, Follows settings progress (events ++ [event]) (effects ++ more) after := by
  cases turn with
  | aside same asides silent unawaited lasting unqueued untaken kept =>
      refine ⟨progress, follows.stay same.settings same.phase same.stage same.nextId
        (filterMap_stage?_asides asides) (filterMap_message?_asides asides)
        (filter_isLandmark_asides asides) ?_ ?_ ?_ (follows.waits_unawaited unawaited)⟩
      · intro done
        apply silent
        by_contra going
        rw [Bool.not_eq_false] at going
        exact absurd (done.symm.trans (isOver_of_isGoing going)) (by simp)
      · rw [unqueued, Option.toList_none, List.append_nil]
      · exact fun lasts => lasting (follows.isGoing_of lasts)
  | queued submission =>
      refine ⟨progress, follows.stay rfl rfl rfl rfl rfl rfl rfl (fun _ => rfl) rfl (fun _ => rfl)
        (follows.waits_unawaited ?_)⟩
      simp [SessionEvent.answer?]
  | ends asides fault going plain unmined unqueued untaken kept =>
      exact ⟨progress, follows.finish going plain unqueued⟩
  | granted waits answered grants => exact ⟨_, follows.grant waits answered grants⟩
  | authorized waits answered grants =>
      obtain ⟨subscription, behind⟩ := follows.authorize waits answered grants
      exact ⟨_, behind⟩
  | submits mining first =>
      obtain ⟨subscription, taken, behind⟩ := follows.submit mining first
      exact ⟨_, behind⟩
  | settles mining answered found =>
      obtain ⟨lasting, unqueued⟩ := plain_of_answer answered
      refine ⟨progress, follows.stay rfl rfl rfl rfl rfl rfl ?_ ?_ ?_ (fun _ => lasting) ?_⟩
      · exact filter_isLandmark_verdict _ _ _ _
      · simp [isOver, Client.outcome?, mining]
      · rw [unqueued, Option.toList_none, List.append_nil]
      · exact follows.waits_mining mining
  | prunes prunes =>
      have mining := phase_of_takesShares prunes.1
      have plain := session.client.prune_asides now
      obtain ⟨lasting, unqueued⟩ : event.isEnd = false ∧ event.queued? = none := by
        cases event with
        | tick | wake => exact ⟨rfl, rfl⟩
        | line | closed | queue | take | shutdown => exact prunes.2.elim
      refine ⟨progress, follows.stay rfl rfl rfl rfl (filterMap_stage?_asides plain)
        (filterMap_message?_asides plain) (filter_isLandmark_asides plain) ?_ ?_ (fun _ => lasting)
        ?_⟩
      · simp [isOver, Client.outcome?, mining]
      · rw [unqueued, Option.toList_none, List.append_nil]
      · exact follows.waits_mining mining

/-- At every point of a session there is a progress that it follows. -/
theorem run_follows (settings : PoolSettings) (begun : Instant)
    (events : List (Instant × SessionEvent)) :
    ∃ progress, Follows settings progress (events.map Prod.snd)
      (PoolSession.effects settings begun events) ((opened settings begun).behind events) := by
  induction events using List.reverseRecOn with
  | nil =>
      rw [PoolSession.effects, moments, List.flatMap_nil, List.append_nil]
      exact ⟨.asked, opened_follows settings begun⟩
  | append_singleton events event ih =>
      obtain ⟨progress, follows⟩ := ih
      rw [List.map_append, effects_concat, behind_concat]
      exact follows.turn (act_turn _ event.1 event.2)

/-- A session remains connected until it is over. -/
theorem behind_connected (settings : PoolSettings) (begun : Instant)
    (events : List (Instant × SessionEvent)) :
    ((opened settings begun).behind events).client.phase ≠ .unconnected := by
  intro unconnected
  obtain ⟨progress, follows⟩ := run_follows settings begun events
  have lasts : ((opened settings begun).behind events).isOver = false := by
    simp only [isOver, Client.outcome?, unconnected, Option.isSome_none]
  have phase := (follows.client lasts).phase
  rw [unconnected] at phase
  cases progress <;> exact absurd phase (by simp [SessionProgress.phase])

/-- A session shows its stages in their order and ends at most once; the client writes its requests
in their order, each share as it was queued, and asks on only for answers that let it. -/
theorem run_goes_one_way (settings : PoolSettings) (begun : Instant)
    (events : List (Instant × SessionEvent)) :
    let done := PoolSession.effects settings begun events
    let session := (opened settings begun).behind events
    let answers := events.filterMap fun event => event.2.answer?
    let written := done.filterMap Effect.message?
    ∃ (progress : SessionProgress) (others : List PoolEvent),
      (progress.stages ≠ [] ∧
        progress.stages <+: [.connecting, .subscribed, .authorized, .mining] ∧
        done.filterMap Effect.stage? = progress.stages ++ session.ending .disconnected) ∧
      (written = progress.requests settings ∧
        (events.filterMap fun event => event.2.queued?) = progress.taken ++ session.waiting) ∧
      (authorizeRequest settings ∈ written → ∃ grant ∈ answers, grant.Subscribes) ∧
      (∀ id params, .request id "mining.submit" params ∈ written →
        ∃ grant authorization, [grant, authorization].Sublist answers ∧ grant.Subscribes ∧
          authorization.Authorizes) ∧
      (done.filterMap Effect.event? = others ++ session.ending .disconnected ∧
        ∃ subscription,
          others.filter PoolEvent.isLandmark <+: [.subscribed subscription, .authorized]) ∧
      ((∃ event ∈ events, event.2.isEnd = true) → session.isOver = true) ∧
      (session.isOver = false → progress.Waits answers) := by
  intro done session answers written
  obtain ⟨progress, follows⟩ := run_follows settings begun events
  obtain ⟨others, emitted, marks⟩ := follows.landmarks
  have requests : written = progress.requests settings := follows.requests
  have given : (events.map Prod.snd).filterMap SessionEvent.answer? = answers :=
    List.filterMap_map
  have earned : progress.Earned answers := given ▸ follows.earned
  refine ⟨progress, others, ⟨progress.stages_prefix.1, progress.stages_prefix.2, follows.stages⟩,
    ⟨requests, ?_⟩, ?_, ?_, ⟨emitted, ?_⟩, ?_, ?_⟩
  · rw [← follows.queue, List.filterMap_map]
    rfl
  · rw [requests]
    exact earned.subscribes
  · rw [requests]
    exact fun id params => earned.authorizes
  · rw [marks]
    exact progress.landmarks_prefix
  · rintro ⟨event, member, ends⟩
    exact follows.ended ⟨event.2, List.mem_map_of_mem member, ends⟩
  · exact fun lasts => given ▸ follows.waits lasts

end PoolSession

end StratumMiner
