import Mathlib
import StratumMiner.Proofs.Pool.Lifecycle

/-!
# What a client remembers of the shares handed in

The client remembers each share that it has handed in until the pool answers it, or until it has
waited too long.  What one event adds and drops is read off its turn.  So at any moment of a session
the client remembers the shares that were handed in before and dropped at no moment in between; and
while the counter of requests does not come round, they bear ids in the order in which they were
handed in.
-/

namespace StratumMiner

namespace SessionMoment

/-- Whether a share is handed in, and how the client remembers it. -/
structure Submits (moment : SessionMoment) (submission : Submission) (share : PendingShare) :
    Prop where
  mining : moment.before.client.phase = .mining
  takes : moment.event = .take
  first : moment.before.waiting.head? = some submission
  kept : share =
    { id := moment.before.client.nextId, jobId := submission.jobId, nonce := submission.nonce
      sentAt := moment.now }

/-- Whether an answer comes to a client that mines. -/
structure Hears (moment : SessionMoment) (answer : PoolAnswer) : Prop where
  mining : moment.before.client.phase = .mining
  answered : moment.event.answer? = some answer

/-- Whether the client forgets a share if it still remembers it: it looks for shares that have
waited for 120 seconds, and this is one. -/
def Forgets (moment : SessionMoment) (share : PendingShare) : Prop :=
  moment.before.Prunes moment.now moment.event ∧
    inSeconds 120 ≤ moment.now - share.sentAt

/-- Whether the client no longer remembers a share behind this moment. -/
def Drops (moment : SessionMoment) (share : PendingShare) : Prop :=
  (∃ answer, moment.Hears answer ∧ answer.id = share.id) ∨ moment.Forgets share

variable {moment : SessionMoment} {share : PendingShare} {answer : PoolAnswer}

theorem not_drops_of_not_mining (unmined : moment.before.client.phase ≠ .mining) :
    ¬moment.Drops share := by
  rintro (⟨answer, hears, -⟩ | ⟨prunes, -⟩)
  · exact unmined hears.mining
  · exact unmined (PoolSession.phase_of_takesShares prunes.1)

theorem not_drops (unanswered : moment.event.answer? = none)
    (kept : ¬moment.before.Prunes moment.now moment.event) : ¬moment.Drops share := by
  rintro (⟨answer, hears, -⟩ | ⟨prunes, -⟩)
  · exact absurd (unanswered.symm.trans hears.answered) (by simp)
  · exact kept prunes

end SessionMoment

namespace PoolSession

open Client (Effect)

variable {session after : PoolSession} {now : Instant} {event : SessionEvent}
  {effects : List Effect}

theorem not_submits_of_event (other : event ≠ .take) {submission : Submission}
    {share : PendingShare} : ¬(SessionMoment.mk session now event).Submits submission share :=
  fun submits => other submits.takes

theorem not_prunes_of_answer {answer : PoolAnswer} (answered : event.answer? = some answer) :
    ¬session.Prunes now event := by
  cases event with
  | line text => exact fun prunes => prunes.2
  | closed | queue | take | wake | tick | shutdown => simp [SessionEvent.answer?] at answered

theorem ne_take_of_answer {answer : PoolAnswer} (answered : event.answer? = some answer) :
    event ≠ .take := by
  rintro rfl
  simp [SessionEvent.answer?] at answered

theorem answer?_of_prunes (prunes : session.Prunes now event) :
    event.answer? = none ∧ event ≠ .take := by
  cases event with
  | tick | wake => exact ⟨rfl, by simp⟩
  | line | closed | queue | take | shutdown => exact prunes.2.elim

/-- Which shares the client remembers behind an event by which it neither drops nor adds one. -/
theorem mem_pending_same {share : PendingShare} {pending : List PendingShare}
    (same : pending = session.client.pending)
    (drops : share ∈ session.client.pending → ¬(SessionMoment.mk session now event).Drops share)
    (submits : ∀ submission, ¬(SessionMoment.mk session now event).Submits submission share) :
    share ∈ pending ↔
      share ∈ session.client.pending ∧ ¬(SessionMoment.mk session now event).Drops share ∨
        ∃ submission, (SessionMoment.mk session now event).Submits submission share := by
  rw [same]
  constructor
  · exact fun member => .inl ⟨member, drops member⟩
  · rintro (⟨member, -⟩ | ⟨submission, its⟩)
    · exact member
    · exact absurd its (submits submission)

/-- Which shares the client remembers behind an event. -/
theorem Turn.mem_pending (turn : session.Turn now event after effects) (share : PendingShare) :
    share ∈ after.client.pending ↔
      share ∈ session.client.pending ∧ ¬(SessionMoment.mk session now event).Drops share ∨
        ∃ submission, (SessionMoment.mk session now event).Submits submission share := by
  cases turn with
  | aside same asides silent unawaited lasting unqueued untaken kept =>
      refine mem_pending_same same.pending ?_ ?_
      · rintro member (⟨answer, hears, its⟩ | ⟨prunes, -⟩)
        · have mining : session.client.phase = .mining := hears.mining
          have foreign := unawaited answer hears.answered
          simp only [Client.awaits, mining, List.any_eq_false, beq_iff_eq] at foreign
          exact foreign share member its.symm
        · exact kept prunes
      · intro submission submits
        have mining : session.client.phase = .mining := submits.mining
        have takes : session.client.takesShares = true := by
          simp only [Client.takesShares, mining]
        have nothing := untaken submits.takes takes
        have first := submits.first
        simp [nothing] at first
  | queued submission =>
      refine mem_pending_same ?_ ?_ ?_
      · rfl
      · exact fun _ => SessionMoment.not_drops rfl fun prunes => prunes.2
      · exact fun _ => not_submits_of_event (by simp)
  | ends asides fault going plain unmined unqueued untaken kept =>
      refine mem_pending_same ?_ ?_ ?_
      · rfl
      · rintro member (⟨answer, hears, -⟩ | ⟨prunes, -⟩)
        · have mining : session.client.phase = .mining := hears.mining
          have takes : session.client.takesShares = true := by
            simp only [Client.takesShares, mining]
          exact absurd ((unmined takes).symm.trans hears.answered) (by simp)
        · exact kept prunes
      · exact fun _ => not_submits_of_event untaken
  | granted waits answered grants =>
      refine mem_pending_same ?_ ?_ ?_
      · rfl
      · exact fun _ => SessionMoment.not_drops_of_not_mining (by simp [waits])
      · exact fun _ => not_submits_of_event (ne_take_of_answer answered)
  | authorized waits answered grants =>
      refine mem_pending_same ?_ ?_ ?_
      · rfl
      · exact fun _ => SessionMoment.not_drops_of_not_mining (by simp [waits])
      · exact fun _ => not_submits_of_event (ne_take_of_answer answered)
  | @submits submission others mining first =>
      simp only [Client.submit, Client.request, List.mem_append, List.mem_singleton]
      constructor
      · rintro (member | latest)
        · exact .inl ⟨member, SessionMoment.not_drops rfl fun prunes => prunes.2⟩
        · exact .inr ⟨submission, mining, rfl, by rw [first]; rfl, latest⟩
      · rintro (⟨member, -⟩ | ⟨other, submits⟩)
        · exact .inl member
        · have same : submission = other := by
            have head := submits.first
            rw [first] at head
            exact Option.some.inj head
          exact .inr (same ▸ submits.kept)
  | @settles _ answer found mining answered its =>
      simp only [List.mem_filter, bne_iff_ne, ne_eq]
      constructor
      · rintro ⟨member, different⟩
        refine .inl ⟨member, ?_⟩
        rintro (⟨given, hears, same⟩ | ⟨prunes, -⟩)
        · obtain rfl := Option.some.inj (answered.symm.trans hears.answered)
          exact different same.symm
        · exact not_prunes_of_answer answered prunes
      · rintro (⟨member, kept⟩ | ⟨submission, submits⟩)
        · exact ⟨member, fun same => kept (.inl ⟨answer, ⟨mining, answered⟩, same.symm⟩)⟩
        · exact absurd submits.takes (ne_take_of_answer answered)
  | prunes prunes =>
      obtain ⟨unanswered, untaken⟩ := answer?_of_prunes prunes
      simp only [Client.prune, List.mem_filter, Client.isForgotten, Bool.not_eq_true',
        decide_eq_false_iff_not]
      constructor
      · rintro ⟨member, young⟩
        refine .inl ⟨member, ?_⟩
        rintro (⟨given, hears, -⟩ | ⟨-, old⟩)
        · exact absurd (unanswered.symm.trans hears.answered) (by simp)
        · exact young old
      · rintro (⟨member, kept⟩ | ⟨submission, submits⟩)
        · exact ⟨member, fun old => kept (.inr ⟨prunes, old⟩)⟩
        · exact absurd submits.takes untaken

/-! ## Histories -/

variable {settings : PoolSettings} {begun : Instant} {events : List (Instant × SessionEvent)}

/-- The moments of a session, one for each event. -/
theorem getElem?_moments (session : PoolSession) (events : List (Instant × SessionEvent))
    (index : Nat) :
    (session.moments events)[index]? =
      events[index]?.map fun event => ⟨session.behind (events.take index), event.1, event.2⟩ := by
  induction events generalizing session index with
  | nil => rfl
  | cons event events ih =>
      cases index with
      | zero => rfl
      | succ index =>
          rw [moments, List.getElem?_cons_succ, List.getElem?_cons_succ, ih, List.take_succ_cons]
          rfl

theorem length_moments (session : PoolSession) (events : List (Instant × SessionEvent)) :
    (session.moments events).length = events.length := by
  induction events generalizing session with
  | nil => rfl
  | cons event events ih => rw [moments, List.length_cons, List.length_cons, ih]

theorem eq_of_getElem?_moments {session : PoolSession} {events : List (Instant × SessionEvent)}
    {index : Nat} {moment : SessionMoment} (its : (session.moments events)[index]? = some moment) :
    ∃ inside : index < events.length,
      moment = ⟨session.behind (events.take index), events[index].1, events[index].2⟩ := by
  rw [getElem?_moments] at its
  obtain ⟨event, here, rfl⟩ := Option.map_eq_some_iff.mp its
  obtain ⟨inside, rfl⟩ := List.getElem?_eq_some_iff.mp here
  exact ⟨inside, rfl⟩

theorem moments_take (session : PoolSession) (events : List (Instant × SessionEvent))
    (count : Nat) : (session.moments events).take count = session.moments (events.take count) := by
  induction events generalizing session count with
  | nil => simp [moments]
  | cons event events ih =>
      cases count with
      | zero => rfl
      | succ count => simp only [moments, List.take_succ_cons, ih]

/-- Whether a share is handed in at one moment of a history, and not dropped before another. -/
structure Remembers (history : List SessionMoment) (handed here : Nat) (submission : Submission)
    (share : PendingShare) : Prop where
  earlier : handed < here
  submits : ∃ moment, history[handed]? = some moment ∧ moment.Submits submission share
  kept : ∀ between moment, handed < between → between < here →
    history[between]? = some moment → ¬moment.Drops share

/-- What comes later is nothing to what is remembered here. -/
theorem remembers_take {history : List SessionMoment} {handed here : Nat}
    {submission : Submission} {share : PendingShare} :
    Remembers (history.take here) handed here submission share ↔
      Remembers history handed here submission share := by
  have same {index : Nat} (inside : index < here) : (history.take here)[index]? = history[index]? :=
    List.getElem?_take_of_lt inside
  constructor
  · rintro ⟨earlier, submits, kept⟩
    rw [same earlier] at submits
    refine ⟨earlier, submits, fun between moment behind inside its => ?_⟩
    exact kept between moment behind inside ((same inside).trans its)
  · rintro ⟨earlier, submits, kept⟩
    rw [← same earlier] at submits
    refine ⟨earlier, submits, fun between moment behind inside its => ?_⟩
    exact kept between moment behind inside ((same inside).symm.trans its)

/-- A share is remembered one moment longer if it is not dropped then. -/
theorem remembers_concat {past : List SessionMoment} {moment : SessionMoment}
    {share : PendingShare} :
    (∃ handed submission, Remembers (past ++ [moment]) handed (past.length + 1) submission share) ↔
      (∃ handed submission, Remembers past handed past.length submission share) ∧
          ¬moment.Drops share ∨
        ∃ submission, moment.Submits submission share := by
  have latest : (past ++ [moment])[past.length]? = some moment := List.getElem?_concat_length
  have before {index : Nat} (inside : index < past.length) :
      (past ++ [moment])[index]? = past[index]? := List.getElem?_append_left inside
  constructor
  · rintro ⟨handed, submission, earlier, ⟨handing, its, submits⟩, kept⟩
    rcases Nat.lt_succ_iff_lt_or_eq.mp earlier with inside | rfl
    · refine .inl ⟨⟨handed, submission, inside, ⟨handing, before inside ▸ its, submits⟩, ?_⟩, ?_⟩
      · intro between other behind inside its
        exact kept between other behind (by omega) ((before inside).trans its)
      · exact kept past.length moment inside (by omega) latest
    · obtain rfl := Option.some.inj (latest.symm.trans its)
      exact .inr ⟨submission, submits⟩
  · rintro (⟨⟨handed, submission, earlier, ⟨handing, its, submits⟩, kept⟩, stays⟩ |
      ⟨submission, submits⟩)
    · refine ⟨handed, submission, by omega, ⟨handing, (before earlier).trans its, submits⟩, ?_⟩
      intro between other behind inside its
      rcases Nat.lt_succ_iff_lt_or_eq.mp inside with inside | rfl
      · exact kept between other behind inside (before inside ▸ its)
      · obtain rfl := Option.some.inj (latest.symm.trans its)
        exact stays
    · refine ⟨past.length, submission, by omega, ⟨moment, latest, submits⟩, ?_⟩
      omega

/-- Behind any events, the client remembers the shares that were handed in and not dropped. -/
theorem mem_pending_behind (settings : PoolSettings) (begun : Instant)
    (events : List (Instant × SessionEvent)) (share : PendingShare) :
    share ∈ ((opened settings begun).behind events).client.pending ↔
      ∃ handed submission,
        Remembers ((opened settings begun).moments events) handed events.length submission
          share := by
  induction events using List.reverseRecOn with
  | nil =>
      constructor
      · exact fun member => absurd member List.not_mem_nil
      · rintro ⟨handed, submission, earlier, -, -⟩
        exact absurd earlier (Nat.not_lt_zero handed)
  | append_singleton events event ih =>
      rw [behind_concat, moments_concat, (act_turn _ event.1 event.2).mem_pending, ih,
        List.length_append, List.length_singleton,
        ← length_moments (opened settings begun) events, remembers_concat]

/-- At any moment, the client remembers the shares that were handed in before and not dropped. -/
theorem mem_pending_before {here : Nat} {moment : SessionMoment}
    (its : ((opened settings begun).moments events)[here]? = some moment)
    (share : PendingShare) :
    share ∈ moment.before.client.pending ↔
      ∃ handed submission,
        Remembers ((opened settings begun).moments events) handed here submission share := by
  obtain ⟨inside, rfl⟩ := eq_of_getElem?_moments its
  simp only [mem_pending_behind, ← moments_take, List.length_take, Nat.min_eq_left inside.le,
    remembers_take]

/-! ## Ids -/

/-- The requests that a client has written in a session, in order. -/
def written (settings : PoolSettings) (begun : Instant) (events : List (Instant × SessionEvent)) :
    List Message :=
  (PoolSession.effects settings begun events).filterMap Effect.message?

theorem submitRequests_ids (taken : List Submission) :
    (submitRequests taken).map Message.id? =
      (List.range' 3 taken.length).map fun id => some (UInt64.ofNat id) := by
  induction taken using List.reverseRecOn with
  | nil => rfl
  | append_singleton taken submission ih =>
      rw [submitRequests_concat, List.map_append, ih, List.length_append, List.length_singleton,
        List.range'_concat, List.map_append, Nat.one_mul, Nat.add_comm 3]
      rfl

/-- The requests that have been written bear consecutive ids, from one on. -/
theorem written_ids (settings : PoolSettings) (begun : Instant)
    (events : List (Instant × SessionEvent)) :
    (written settings begun events).map Message.id? =
      (List.range' 1 (written settings begun events).length).map fun id =>
        some (UInt64.ofNat id) := by
  obtain ⟨progress, follows⟩ := run_follows settings begun events
  have requests : written settings begun events = progress.requests settings := follows.requests
  rw [requests]
  cases progress with
  | asked | granted => rfl
  | mining subscription taken =>
      rw [SessionProgress.length_requests_mining, List.range'_succ, List.range'_succ,
        SessionProgress.requests, List.map_append, submitRequests_ids]
      rfl

theorem ofNat_lt_ofNat {first second : Nat} (earlier : first < second) (few : second < 2 ^ 64) :
    UInt64.ofNat first < UInt64.ofNat second := by
  rw [UInt64.lt_iff_toNat_lt, UInt64.toNat_ofNat', UInt64.toNat_ofNat', Nat.mod_eq_of_lt few,
    Nat.mod_eq_of_lt (earlier.trans few)]
  exact earlier

/-- While there are few enough requests for the counter, their ids increase. -/
theorem written_ids_increase (few : (written settings begun events).length < 2 ^ 64) :
    ((written settings begun events).filterMap Message.id?).Pairwise (· < ·) := by
  have ids : (written settings begun events).filterMap Message.id? =
      (List.range' 1 (written settings begun events).length).map UInt64.ofNat := by
    calc (written settings begun events).filterMap Message.id?
      _ = ((written settings begun events).map Message.id?).filterMap id := by
          rw [List.filterMap_map]
          rfl
      _ = (List.range' 1 (written settings begun events).length).map UInt64.ofNat := by
          rw [written_ids, List.filterMap_map]
          exact congrFun List.filterMap_eq_map _
  rw [ids, List.pairwise_map]
  refine List.Pairwise.imp_of_mem ?_ List.pairwise_lt_range'
  intro first second inFirst inSecond earlier
  rw [List.mem_range'_1] at inSecond
  exact ofNat_lt_ofNat earlier (by omega)

/-- The next request bears the next id. -/
theorem nextId_behind (going : ((opened settings begun).behind events).isGoing = true) :
    ((opened settings begun).behind events).client.nextId =
      UInt64.ofNat ((written settings begun events).length + 1) := by
  obtain ⟨progress, follows⟩ := run_follows settings begun events
  have requests : written settings begun events = progress.requests settings := follows.requests
  rw [requests]
  exact (follows.point going).nextId

theorem written_grows {first second : List (Instant × SessionEvent)} (starts : first <+: second) :
    written settings begun first <+: written settings begun second := by
  obtain ⟨rest, rfl⟩ := starts
  induction rest using List.reverseRecOn with
  | nil => rw [List.append_nil]
  | append_singleton rest event ih =>
      rw [← List.append_assoc, written, written, effects_concat, List.filterMap_append]
      exact ih.trans (List.prefix_append _ _)

end PoolSession

namespace SessionMoment

open Client (Effect)

variable {moment : SessionMoment} {submission : Submission} {share : PendingShare}

/-- What handing in a share comes to. -/
theorem Submits.effects_eq (submits : moment.Submits submission share) :
    moment.effects =
      [.note (.submitting submission.jobId submission.nonce),
        .write (.request share.id "mining.submit" submission.toJson)] := by
  obtain ⟨before, now, event⟩ := moment
  obtain ⟨mining, rfl, first, rfl⟩ := submits
  dsimp only at mining first ⊢
  obtain ⟨others, waiting⟩ := List.head?_eq_some_iff.mp first
  simp only [SessionMoment.effects, PoolSession.act, waiting, Client.takesShares, mining, if_true,
    PoolSession.told, Client.step, Client.stepMining, Client.submit, Client.request]

end SessionMoment

namespace PoolSession

open Client (Effect)

variable {settings : PoolSettings} {begun : Instant} {events : List (Instant × SessionEvent)}
  {moment : SessionMoment} {submission : Submission} {share : PendingShare}

/-- A share goes out only when one is handed in. -/
theorem Turn.submits_of_written {session after : PoolSession} {now : Instant}
    {event : SessionEvent} {effects : List Effect} (turn : session.Turn now event after effects)
    {id : UInt64} {params : Json}
    (goesOut : .write (.request id "mining.submit" params) ∈ effects) :
    ∃ submission share, (SessionMoment.mk session now event).Submits submission share ∧
      share.id = id ∧ params = submission.toJson := by
  cases turn with
  | aside same asides silent unawaited lasting unqueued untaken kept =>
      exact absurd goesOut (Effect.notMem_asides asides rfl)
  | queued submission => exact absurd goesOut List.not_mem_nil
  | ends asides fault going plain unmined unqueued untaken kept =>
      rcases List.mem_append.mp goesOut with early | late
      · exact absurd early (Effect.notMem_asides plain rfl)
      · rcases Client.mem_finish late with same | ⟨note, same⟩ <;> cases same
  | granted waits answered grants =>
      simp only [Client.subscribed, Client.enter, Client.request] at goesOut
      split at goesOut <;> simp at goesOut
  | authorized waits answered grants =>
      simp only [Client.authorized, Client.enter] at goesOut
      split at goesOut <;> simp at goesOut
  | @submits submission others mining first =>
      refine ⟨submission, _, ⟨mining, rfl, by rw [first]; rfl, rfl⟩, ?_⟩
      simp only [Client.submit, Client.request, List.mem_cons, reduceCtorEq, Effect.write.injEq,
        Message.request.injEq, true_and, List.not_mem_nil, or_false, false_or] at goesOut
      exact ⟨goesOut.1.symm, goesOut.2⟩
  | settles mining answered found => simp at goesOut
  | prunes prunes =>
      exact absurd goesOut (Effect.notMem_asides (session.client.prune_asides now) rfl)

/-- The request by which a share is handed in comes behind those written before. -/
theorem written_submits {here : Nat}
    (its : ((opened settings begun).moments events)[here]? = some moment)
    (submits : moment.Submits submission share) :
    written settings begun (events.take (here + 1)) =
        written settings begun (events.take here) ++
          [.request share.id "mining.submit" submission.toJson] ∧
      share.id = UInt64.ofNat ((written settings begun (events.take here)).length + 1) := by
  obtain ⟨inside, rfl⟩ := eq_of_getElem?_moments its
  constructor
  · rw [List.take_succ_eq_append_getElem inside, written, effects_concat, List.filterMap_append]
    exact congrArg _ (congrArg _ submits.effects_eq)
  · have mining : ((opened settings begun).behind (events.take here)).client.phase = .mining :=
      submits.mining
    rw [submits.kept]
    apply nextId_behind
    simp only [isGoing, mining]

/-- While there are few enough requests for the counter, shares bear ids in the order in which they
are handed in. -/
theorem id_lt_id (few : (written settings begun events).length < 2 ^ 64) {first second : Nat}
    {later : SessionMoment} {otherSubmission : Submission} {otherShare : PendingShare}
    (inFirst : ((opened settings begun).moments events)[first]? = some moment)
    (submits : moment.Submits submission share)
    (inSecond : ((opened settings begun).moments events)[second]? = some later)
    (alsoSubmits : later.Submits otherSubmission otherShare) (earlier : first < second) :
    share.id < otherShare.id := by
  obtain ⟨firstWritten, firstId⟩ := written_submits inFirst submits
  obtain ⟨secondWritten, secondId⟩ := written_submits inSecond alsoSubmits
  have between : events.take (first + 1) <+: events.take second :=
    List.take_prefix_take_left earlier
  have upTo : events.take (second + 1) <+: events := List.take_prefix _ _
  have more : (written settings begun (events.take (first + 1))).length ≤
      (written settings begun (events.take second)).length := (written_grows between).length_le
  have all : (written settings begun (events.take (second + 1))).length ≤
      (written settings begun events).length := (written_grows upTo).length_le
  rw [firstWritten, List.length_append, List.length_singleton] at more
  rw [secondWritten, List.length_append, List.length_singleton] at all
  rw [firstId, secondId]
  exact ofNat_lt_ofNat (by omega) (by omega)

end PoolSession

end StratumMiner
