import Mathlib
import StratumMiner.Proofs.Pool.Lifecycle
import StratumMiner.Proofs.Pool.Verdict

/-!
# Shares on their way through a session

A share that is queued is taken once by the client and then waits for an answer, and what comes of
it is one verdict, or it is forgotten.  So with each event, the shares that are queued and those
that wait are as many as before, when those are counted that the event brings, settles and forgets.
This holds as long as no two shares wait under one id, which is so until the counter of requests has
come round.
-/

namespace StratumMiner

namespace PoolEvent

/-- How many of some events are verdicts on shares. -/
def verdicts (events : List PoolEvent) : Nat :=
  events.countP fun event => event.verdict?.isSome

@[simp] theorem verdicts_nil : verdicts [] = 0 := rfl

theorem verdicts_append (first second : List PoolEvent) :
    verdicts (first ++ second) = verdicts first + verdicts second :=
  List.countP_append

theorem verdicts_cons (event : PoolEvent) (others : List PoolEvent) :
    verdicts (event :: others) = verdicts [event] + verdicts others :=
  verdicts_append [event] others

end PoolEvent

namespace Client.Effect

/-- How many of some effects are verdicts on shares. -/
def verdicts (effects : List Effect) : Nat :=
  PoolEvent.verdicts (effects.filterMap Effect.event?)

@[simp] theorem verdicts_nil : verdicts [] = 0 := rfl

theorem verdicts_append (first second : List Effect) :
    verdicts (first ++ second) = verdicts first + verdicts second := by
  rw [verdicts, List.filterMap_append, PoolEvent.verdicts_append]
  rfl

theorem verdicts_cons (effect : Effect) (others : List Effect) :
    verdicts (effect :: others) = verdicts [effect] + verdicts others :=
  verdicts_append [effect] others

theorem verdicts_asides {asides : List Effect} (plain : ∀ effect ∈ asides, effect.isAside = true) :
    verdicts asides = 0 := by
  refine List.countP_eq_zero.mpr ?_
  intro event member
  obtain ⟨effect, inside, its⟩ := List.mem_filterMap.mp member
  have aside := plain effect inside
  cases effect with
  | write | note => exact absurd its (by simp [event?])
  | emit emitted =>
      obtain rfl := Option.some.inj its
      cases emitted with
      | newJob | difficultyChanged | extranonceChanged => simp [PoolEvent.verdict?]
      | subscribed | authorized | shareAccepted | shareRejected | disconnected =>
          exact absurd aside (by simp [isAside])

end Client.Effect

namespace Client

open Effect (verdicts)

variable {client : Client} {now : Instant}

theorem verdicts_enter (client : Client) (stage : PoolStage) :
    verdicts (client.enter stage).2 = 0 := by
  simp only [enter]
  split <;> rfl

theorem verdicts_finish (client : Client) (fault : Option PoolFault) :
    verdicts (client.finish fault).2 = 0 := by
  simp only [finish, Effect.verdicts_append, verdicts_enter]
  rfl

theorem verdicts_subscribed (now : Instant) (client : Client) (subscription : Subscription) :
    verdicts (client.subscribed now subscription).2 = 0 := by
  simp only [subscribed, request, Effect.verdicts_append, verdicts_enter]
  rfl

theorem verdicts_authorized (now : Instant) (client : Client) :
    verdicts (client.authorized now).2 = 0 := by
  simp only [authorized, Effect.verdicts_append, verdicts_enter]
  rfl

theorem verdicts_verdict (share : PendingShare) (latency : Duration) (result error : Option Json) :
    verdicts [.emit (verdict share latency result error)] = 1 := by
  unfold verdict
  split <;> rfl

end Client

namespace PoolSession

open Client.Effect (verdicts)

variable {session after : PoolSession} {now : Instant} {event : SessionEvent}
  {effects : List Client.Effect}

/-! ## Ids -/

/-- A session in which at most so many shares have been handed in, under consecutive ids. -/
structure Numbered (session : PoolSession) (sent : Nat) : Prop where
  connected : session.client.phase ≠ .unconnected
  /-- No share waits while the client is being let in. -/
  early : session.isGoing = true → session.client.takesShares = false →
    session.client.pending = []
  consecutive : ∃ first : UInt64, session.client.nextId = first + UInt64.ofNat sent ∧
    (session.client.pending.map PendingShare.id).Sublist
      ((List.range sent).map fun count => first + UInt64.ofNat count)

/-- Until the counter of requests has come round, no two shares wait under one id. -/
theorem Numbered.distinct {sent : Nat} (numbered : session.Numbered sent) (few : sent < 2 ^ 64) :
    (session.client.pending.map PendingShare.id).Nodup := by
  obtain ⟨first, -, sublist⟩ := numbered.consecutive
  refine sublist.nodup (List.Nodup.map_on ?_ List.nodup_range)
  intro one inOne other inOther same
  have equal := congrArg UInt64.toNat (add_left_cancel same)
  rw [List.mem_range] at inOne inOther
  rwa [UInt64.toNat_ofNat', UInt64.toNat_ofNat', Nat.mod_eq_of_lt (inOne.trans few),
    Nat.mod_eq_of_lt (inOther.trans few)] at equal

theorem opened_numbered (settings : PoolSettings) (begun : Instant) :
    (opened settings begun).Numbered 0 where
  connected := by
    simp [opened, Client.start, Client.request, Client.enter]
  early := fun _ _ => rfl
  consecutive := ⟨_, (UInt64.add_zero _).symm, List.Sublist.refl _⟩

/-- The ids go on from where they are when none is given out. -/
theorem Numbered.stay {sent : Nat} (numbered : session.Numbered sent)
    (nextId : after.client.nextId = session.client.nextId)
    (pending : after.client.pending.Sublist session.client.pending)
    (phase : after.client.phase = session.client.phase ∨ after.client.phase = .mining ∨
      ∃ fault, after.client.phase = .ended fault) : after.Numbered sent where
  connected := by
    rcases phase with same | mining | ⟨fault, ended⟩
    · exact same ▸ numbered.connected
    · simp [mining]
    · simp [ended]
  early := by
    intro going unmined
    rcases phase with same | mining | ⟨fault, ended⟩
    · have before : session.client.pending = [] := by
        apply numbered.early
        · simpa only [isGoing, same] using going
        · simpa only [Client.takesShares, same] using unmined
      exact List.sublist_nil.mp (before ▸ pending)
    · simp [Client.takesShares, mining] at unmined
    · simp [isGoing, ended] at going
  consecutive := by
    obtain ⟨first, next, sublist⟩ := numbered.consecutive
    exact ⟨first, nextId.trans next, (pending.map _).trans sublist⟩

/-- Whatever happens, the ids are consecutive, and a share that is handed in has been queued. -/
theorem Turn.numbered {sent : Nat} (turn : session.Turn now event after effects)
    (numbered : session.Numbered sent) :
    ∃ count, after.Numbered count ∧
      count + after.waiting.length ≤
        sent + session.waiting.length + event.queued?.toList.length := by
  cases turn with
  | aside same asides silent unawaited lasting unqueued untaken kept =>
      exact ⟨sent, numbered.stay same.nextId (same.pending ▸ .refl _) (.inl same.phase), by simp⟩
  | queued submission =>
      refine ⟨sent, numbered.stay rfl (.refl _) (.inl rfl), ?_⟩
      simp only [List.length_append, List.length_singleton, SessionEvent.queued?,
        Option.toList_some]
      omega
  | ends asides fault going plain unmined unqueued untaken kept =>
      exact ⟨sent, numbered.stay rfl (.refl _) (.inr (.inr ⟨fault, rfl⟩)), by simp⟩
  | granted waits answered grants =>
      have nothing : session.client.pending = [] := by
        apply numbered.early
        · simp only [isGoing, waits]
        · simp only [Client.takesShares, waits]
      refine ⟨0, ⟨?_, ?_, ?_⟩, by simp only; omega⟩
      · simp [Client.subscribed, Client.request, Client.enter]
      · exact fun _ _ => nothing
      · refine ⟨_, (UInt64.add_zero _).symm, ?_⟩
        simp [Client.subscribed, Client.request, Client.enter, nothing]
  | authorized waits answered grants =>
      exact ⟨sent, numbered.stay rfl (.refl _) (.inr (.inl rfl)), by simp⟩
  | @submits submission others mining first =>
      obtain ⟨begin, next, sublist⟩ := numbered.consecutive
      refine ⟨sent + 1, ⟨?_, ?_, begin, ?_, ?_⟩, ?_⟩
      · simp [Client.submit, Client.request, mining]
      · intro going unmined
        simp [Client.submit, Client.request, Client.takesShares, mining] at unmined
      · simp only [Client.submit, Client.request, next, UInt64.ofNat_add, UInt64.add_assoc]
        rfl
      · simp only [Client.submit, Client.request, List.map_append, List.range_succ]
        exact sublist.append (by simp [next])
      · simp only [first, List.length_cons]
        omega
  | settles mining answered found =>
      exact ⟨sent, numbered.stay rfl List.filter_sublist (.inl rfl), by simp⟩
  | prunes prunes =>
      exact ⟨sent, numbered.stay rfl List.filter_sublist (.inl rfl), by simp⟩

/-! ## Numbers -/

/-- A session that is over stays over. -/
theorem Turn.outcome?_eq_none (turn : session.Turn now event after effects)
    (lasts : after.client.outcome? = none) : session.client.outcome? = none := by
  cases turn with
  | aside same => simpa only [Client.outcome?, same.phase] using lasts
  | queued submission => exact lasts
  | ends => exact absurd lasts (by simp [Client.outcome?, Client.finish, Client.enter])
  | granted waits => simp only [Client.outcome?, waits]
  | authorized waits => simp only [Client.outcome?, waits]
  | submits mining => simp only [Client.outcome?, mining]
  | settles mining => simp only [Client.outcome?, mining]
  | prunes => exact lasts

/-- How many shares the client forgets with an event. -/
def forgotten (session : PoolSession) (now : Instant) : SessionEvent → Nat
  | .tick =>
      if session.client.takesShares then
        session.client.pending.countP fun share => Client.isForgotten now share
      else 0
  | .wake =>
      if session.client.takesShares ∧ session.client.due ≤ now then
        session.client.pending.countP fun share => Client.isForgotten now share
      else 0
  | _ => 0

theorem forgotten_of_prunes (prunes : session.Prunes now event) :
    session.forgotten now event =
      session.client.pending.countP fun share => Client.isForgotten now share := by
  obtain ⟨takes, due⟩ := prunes
  cases event with
  | tick => exact if_pos takes
  | wake => exact if_pos ⟨takes, due⟩
  | line | closed | queue | take | shutdown => exact due.elim

theorem forgotten_of_not_prunes (kept : ¬session.Prunes now event) :
    session.forgotten now event = 0 := by
  cases event with
  | tick => exact if_neg fun takes => kept ⟨takes, trivial⟩
  | wake => exact if_neg kept
  | line | closed | queue | take | shutdown => rfl

theorem forgotten_of_answer {answer : PoolAnswer} (answered : event.answer? = some answer) :
    session.forgotten now event = 0 := by
  cases event with
  | line text => rfl
  | closed | queue | take | wake | tick | shutdown => simp [SessionEvent.answer?] at answered

/-- An answer settles one share. -/
theorem length_filter_settled {pending : List PendingShare} {share : PendingShare} {id : UInt64}
    (distinct : (pending.map PendingShare.id).Nodup)
    (found : (pending.find? fun share => share.id == id) = some share) :
    (pending.filter fun share => share.id != id).length + 1 = pending.length := by
  have its : share.id = id := beq_iff_eq.mp (List.find?_some found :)
  have one : pending.countP (fun share => share.id == id) = 1 := by
    have once := List.count_eq_one_of_mem distinct
      (List.mem_map_of_mem (List.mem_of_find?_eq_some found))
    rwa [its, List.count, List.countP_map] at once
  have all := List.length_eq_countP_add_countP (l := pending) fun share => share.id == id
  have others : (pending.countP fun share => decide ¬(share.id == id) = true) =
      pending.countP fun share => share.id != id :=
    List.countP_congr fun share _ => by simp
  rw [← List.countP_eq_length_filter]
  omega

/-- No share is lost or counted twice on its way: with those that an event brings, settles and
forgets, there are as many behind it as before. -/
theorem Turn.conserves (turn : session.Turn now event after effects)
    (distinct : (session.client.pending.map PendingShare.id).Nodup) :
    after.waiting.length + after.client.pending.length + verdicts effects +
        session.forgotten now event =
      session.waiting.length + session.client.pending.length + event.queued?.toList.length := by
  cases turn with
  | aside same asides silent unawaited lasting unqueued untaken kept =>
      simp [Client.Effect.verdicts_asides asides, forgotten_of_not_prunes kept, same.pending,
        unqueued]
  | queued submission =>
      simp only [List.length_append, List.length_singleton, forgotten, SessionEvent.queued?,
        Client.Effect.verdicts_nil, Option.toList_some]
      omega
  | ends asides fault going plain unmined unqueued untaken kept =>
      have same : (session.client.finish fault).1.pending = session.client.pending := rfl
      simp [Client.Effect.verdicts_append, Client.Effect.verdicts_asides plain,
        Client.verdicts_finish, forgotten_of_not_prunes kept, unqueued, same]
  | @granted _ answer subscription waits answered grants =>
      have same : (Client.subscribed now session.client subscription).1.pending =
          session.client.pending := rfl
      obtain ⟨-, unqueued⟩ := plain_of_answer answered
      simp [Client.verdicts_subscribed, forgotten_of_answer answered, same, unqueued]
  | authorized waits answered grants =>
      have same : (Client.authorized now session.client).1.pending = session.client.pending := rfl
      obtain ⟨-, unqueued⟩ := plain_of_answer answered
      simp [Client.verdicts_authorized, forgotten_of_answer answered, same, unqueued]
  | @submits submission others mining first =>
      have quiet : verdicts (Client.submit now session.client submission).2 = 0 := rfl
      have one : (Client.submit now session.client submission).1.pending.length =
          session.client.pending.length + 1 := List.length_append
      simp only [quiet, one, forgotten, SessionEvent.queued?, first, List.length_cons,
        Option.toList_none, List.length_nil]
      omega
  | @settles _ answer share mining answered found =>
      obtain ⟨-, unqueued⟩ := plain_of_answer answered
      have settled := length_filter_settled distinct found
      simp only [Client.verdicts_verdict, forgotten_of_answer answered, unqueued,
        Option.toList_none, List.length_nil]
      omega
  | prunes prunes =>
      have unqueued : event.queued? = none := by
        cases event with
        | wake | tick => rfl
        | line | closed | queue | take | shutdown => exact prunes.2.elim
      have both := List.length_eq_countP_add_countP (l := session.client.pending) fun share =>
        Client.isForgotten now share
      have waiting : (session.client.prune now).1.pending.length =
          session.client.pending.countP fun share =>
            decide ¬Client.isForgotten now share = true := by
        simp [Client.prune, ← List.countP_eq_length_filter]
      simp only [Client.Effect.verdicts_asides (session.client.prune_asides now),
        forgotten_of_prunes prunes, unqueued, waiting, Option.toList_none, List.length_nil]
      omega

end PoolSession

end StratumMiner
