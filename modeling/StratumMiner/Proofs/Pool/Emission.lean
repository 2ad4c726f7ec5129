import Mathlib
import StratumMiner.Proofs.Pool.Lifecycle

/-!
# How many events a client has to send

A client sends a last event when its conversation is over, so until then it owes one.  A message
from the pool may bring one event besides; nothing else that the client is told does.
-/

namespace StratumMiner

namespace Client

open Effect (event?)

/-- How many of some effects are events. -/
def Effect.emissions (effects : List Effect) : ℕ :=
  (effects.filterMap event?).length

/-- How many events the end of the conversation will bring. -/
def owed (client : Client) : ℕ :=
  if client.outcome?.isSome then 0 else 1

/-- How many events an input may bring besides. -/
def Input.news : Input → ℕ
  | .message _ => 1
  | .malformed _ | .closed | .submit _ | .wake | .shutdown => 0

/-- With what a client sends and still owes, it stays within what it owed and the news. -/
def KeepsWithin (client : Client) (news : ℕ) (next : Client × List Effect) : Prop :=
  Effect.emissions next.2 + next.1.owed ≤ client.owed + news

namespace Effect

@[simp] theorem emissions_nil : emissions [] = 0 := rfl

@[simp] theorem emissions_emit (event : PoolEvent) (others : List Effect) :
    emissions (.emit event :: others) = emissions others + 1 := rfl

@[simp] theorem emissions_note (note : ClientNote) (others : List Effect) :
    emissions (.note note :: others) = emissions others := rfl

@[simp] theorem emissions_write (message : Message) (others : List Effect) :
    emissions (.write message :: others) = emissions others := rfl

@[simp] theorem emissions_append (first second : List Effect) :
    emissions (first ++ second) = emissions first + emissions second := by
  rw [emissions, List.filterMap_append, List.length_append]
  rfl

end Effect

open Effect (emissions)

variable {client after : Client} {now : Instant} {news : ℕ} {effects : List Effect}

theorem owed_le_one (client : Client) : client.owed ≤ 1 := by
  unfold owed
  split <;> decide

theorem owed_eq_one (going : client.outcome? = none) : client.owed = 1 := by
  rw [owed, going]
  rfl

/-- What a client owes depends on its phase alone. -/
theorem owed_congr (phase : after.phase = client.phase) : after.owed = client.owed := by
  rw [owed, owed, outcome?, outcome?, phase]

@[simp] theorem emissions_enter (client : Client) (stage : PoolStage) :
    emissions (client.enter stage).2 = 0 := by
  unfold enter
  split <;> rfl

/-- A client in the same phase keeps within the news when it sends no more. -/
theorem keepsWithin_of_phase (phase : after.phase = client.phase) (few : emissions effects ≤ news) :
    client.KeepsWithin news (after, effects) := by
  have same := owed_congr phase
  change emissions effects + after.owed ≤ client.owed + news
  omega

/-- The end of the conversation is what was owed. -/
theorem finish_keepsWithin (going : client.outcome? = none) (fault : Option PoolFault) :
    client.KeepsWithin news (client.finish fault) := by
  have last : emissions (client.finish fault).2 = 1 := by simp [finish]
  have nothing : (client.finish fault).1.owed = 0 := rfl
  have due := owed_eq_one going
  unfold KeepsWithin
  omega

/-- A notification brings one event or none, or it ends the conversation. -/
theorem takeNotification_keepsWithin (going : client.outcome? = none) (method : String)
    (params : Json) (report : NotificationFault → ClientNote) :
    client.KeepsWithin 1 (client.takeNotification method params report) := by
  have reaction : ∀ after effects, client.notified method params = .effects after effects →
      after.phase = client.phase ∧ emissions effects ≤ 1 := by
    intro after effects
    simp only [notified, receiveJob, receiveDifficulty, receiveExtranonce]
    repeat' split
    all_goals simp only [Reaction.effects.injEq, reduceCtorEq, and_imp, false_implies]
    all_goals rintro rfl rfl
    all_goals simp
  unfold takeNotification
  split
  · next notified =>
      obtain ⟨phase, few⟩ := reaction _ _ notified
      exact keepsWithin_of_phase phase few
  · exact keepsWithin_of_phase rfl (Nat.zero_le 1)
  · exact finish_keepsWithin going _

theorem subscribed_keepsWithin (going : client.outcome? = none) (subscription : Subscription) :
    client.KeepsWithin 1 (client.subscribed now subscription) := by
  have one : emissions (client.subscribed now subscription).2 = 1 := by simp [subscribed, request]
  have stays := (client.subscribed now subscription).1.owed_le_one
  have due := owed_eq_one going
  unfold KeepsWithin
  omega

theorem authorized_keepsWithin (going : client.outcome? = none) :
    client.KeepsWithin 1 (client.authorized now) := by
  have one : emissions (client.authorized now).2 = 1 := by simp [authorized]
  have stays := (client.authorized now).1.owed_le_one
  have due := owed_eq_one going
  unfold KeepsWithin
  omega

theorem receiveAnswer_keepsWithin (id : UInt64) (result error : Option Json) :
    client.KeepsWithin 1 (client.receiveAnswer now id result error) := by
  unfold receiveAnswer
  split <;> exact keepsWithin_of_phase rfl (by simp)

/-- Being let in, the client keeps within the news if it does so with the answer it waits for. -/
theorem stepSetup_keepsWithin (going : client.outcome? = none) (id : UInt64)
    {answered : (result error : Option Json) → Client × List Effect}
    (keeps : ∀ result error, client.KeepsWithin 1 (answered result error)) (input : Input) :
    client.KeepsWithin input.news (client.stepSetup now id answered input) := by
  cases input with
  | message message =>
      cases message with
      | response other result error =>
          simp only [stepSetup]
          split
          · exact keeps result error
          · exact keepsWithin_of_phase rfl (by simp)
      | notification method params => exact takeNotification_keepsWithin going _ _ _
      | request id method params => exact keepsWithin_of_phase rfl (by simp)
  | malformed detail => exact keepsWithin_of_phase rfl (by simp)
  | closed => exact finish_keepsWithin going _
  | submit submission => exact keepsWithin_of_phase rfl (by simp)
  | wake =>
      simp only [stepSetup]
      split
      · exact finish_keepsWithin going _
      · exact keepsWithin_of_phase rfl (by simp)
  | shutdown => exact finish_keepsWithin going _

theorem prune_keepsWithin (client : Client) (now : Instant) :
    client.KeepsWithin news (client.prune now) := by
  refine keepsWithin_of_phase rfl ?_
  simp [emissions, event?, List.filterMap_map, Function.comp_def]

theorem stepMining_keepsWithin (going : client.outcome? = none) (input : Input) :
    client.KeepsWithin input.news (client.stepMining now input) := by
  cases input with
  | message message =>
      cases message with
      | response id result error => exact receiveAnswer_keepsWithin _ _ _
      | notification method params => exact takeNotification_keepsWithin going _ _ _
      | request id method params => exact keepsWithin_of_phase rfl (by simp)
  | malformed detail => exact keepsWithin_of_phase rfl (by simp)
  | closed => exact finish_keepsWithin going (some .disconnected)
  | submit submission => exact keepsWithin_of_phase rfl (by simp)
  | wake =>
      simp only [stepMining]
      split
      · exact client.prune_keepsWithin now
      · exact keepsWithin_of_phase rfl (by simp)
  | shutdown => exact finish_keepsWithin going none

/-- Whatever it is told, a client sends no more than what it owed and the news. -/
theorem step_keepsWithin (client : Client) (now : Instant) (input : Input) :
    client.KeepsWithin input.news (client.step now input) := by
  unfold step
  split
  · exact keepsWithin_of_phase rfl (by simp)
  · exact keepsWithin_of_phase rfl (by simp)
  · next id subscribing =>
      have going : client.outcome? = none := by rw [outcome?, subscribing]
      refine stepSetup_keepsWithin going id (fun result error => ?_) input
      split
      · exact subscribed_keepsWithin going _
      · exact finish_keepsWithin going _
  · next id authorizing =>
      have going : client.outcome? = none := by rw [outcome?, authorizing]
      refine stepSetup_keepsWithin going id (fun result error => ?_) input
      split
      · exact authorized_keepsWithin going
      · exact finish_keepsWithin going _
  · next mining =>
      exact stepMining_keepsWithin (by rw [outcome?, mining]) input

end Client

/-- How many events for the relay may come of what happens in a session. -/
def SessionEvent.news : SessionEvent → ℕ
  | .line _ => 1
  | .closed | .queue _ | .take | .wake | .tick | .shutdown => 0

theorem SessionEvent.news_le_one (event : SessionEvent) : event.news ≤ 1 := by
  cases event with
  | line text => exact Nat.le_refl 1
  | closed | queue | take | wake | tick | shutdown => exact Nat.zero_le 1

theorem Incoming.news_input (incoming : Incoming) : incoming.input.news ≤ 1 := by
  cases incoming.input with
  | message message => exact Nat.le_refl 1
  | malformed | closed | submit | wake | shutdown => exact Nat.zero_le 1

theorem PoolSession.act_keepsWithin (session : PoolSession) (now : Instant)
    (event : SessionEvent) :
    session.client.KeepsWithin event.news
      ((session.act now event).1.client, (session.act now event).2) := by
  have told (input : Client.Input) := session.client.step_keepsWithin now input
  have quiet {news : ℕ} : session.client.KeepsWithin news (session.client, []) :=
    Client.keepsWithin_of_phase rfl (Nat.zero_le news)
  cases event with
  | line text =>
      simp only [act]
      split
      · exact quiet
      · next incoming read =>
          exact (told incoming.input).trans
            (Nat.add_le_add_left incoming.news_input session.client.owed)
  | closed => exact told .closed
  | queue submission => exact quiet
  | take =>
      simp only [act]
      split
      · exact quiet
      · next submission others waiting =>
          split
          · exact told (.submit submission)
          · exact quiet
  | wake => exact told .wake
  | tick =>
      simp only [act]
      split
      · exact session.client.prune_keepsWithin now
      · exact quiet
  | shutdown => exact told .shutdown

/-- No share is queued unless an event brings it. -/
theorem PoolSession.waiting_act_le (session : PoolSession) (now : Instant) {event : SessionEvent}
    (unqueued : event.queued? = none) :
    (session.act now event).1.waiting.length ≤ session.waiting.length := by
  cases event with
  | queue submission => exact absurd unqueued (by simp [SessionEvent.queued?])
  | line text =>
      simp only [act]
      split <;> exact Nat.le_refl _
  | take =>
      simp only [act]
      split
      · exact Nat.le_refl _
      · next submission others waiting =>
          rw [waiting]
          split
          · exact Nat.le_succ _
          · rw [waiting]
  | tick =>
      simp only [act]
      split <;> exact Nat.le_refl _
  | closed | wake | shutdown => exact Nat.le_refl _

end StratumMiner
