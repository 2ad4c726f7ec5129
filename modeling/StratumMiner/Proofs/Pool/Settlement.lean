import Mathlib
import StratumMiner.Proofs.Pool.Bookkeeping
import StratumMiner.Proofs.Pool.Verdict

/-!
# Which answer settles which share

An answer settles a share if it bears its id and comes while the client remembers the share.  Over a
whole session this pairs answers with shares one to one, and the verdicts that the client tells are
those of the pairs.
-/

namespace StratumMiner

/-- A share is handed in at one moment of a history, and answered at another while it is
remembered. -/
structure Settled (history : List SessionMoment) (handed answered : Nat) (submission : Submission)
    (share : PendingShare) (answer : PoolAnswer) : Prop where
  remembered : PoolSession.Remembers history handed answered submission share
  hears : ∃ moment, history[answered]? = some moment ∧ moment.Hears answer
  its : answer.id = share.id

/-- Shares and answers are paired one to one in a history, and all that the client tells of shares
and forgets of them goes by the pairs. -/
structure SettlesExactly (history : List SessionMoment) : Prop where
  /-- A share is settled at most once. -/
  once : ∀ {handed answered again submission other share sameShare answer otherAnswer},
    Settled history handed answered submission share answer →
      Settled history handed again other sameShare otherAnswer → answered = again
  /-- An answer settles at most one share. -/
  single : ∀ {handed other answered submission otherSubmission share otherShare answer
      sameAnswer},
    Settled history handed answered submission share answer →
      Settled history other answered otherSubmission otherShare sameAnswer → handed = other
  /-- A share is settled if and only if an answer with its id comes before it is forgotten. -/
  settled_iff : ∀ {handed moment submission share}, history[handed]? = some moment →
    moment.Submits submission share →
      ((∃ answered answer, Settled history handed answered submission share answer) ↔
        ∃ answered later answer, handed < answered ∧ history[answered]? = some later ∧
          later.Hears answer ∧ answer.id = share.id ∧
            ∀ between other, handed < between → between < answered →
              history[between]? = some other → ¬other.Forgets share)
  /-- When a share is settled, one event is told: the verdict on it, as the answer says. -/
  verdict : ∀ {handed answered submission share answer moment},
    Settled history handed answered submission share answer → history[answered]? = some moment →
      ∃ event accepted, moment.effects = [.emit event] ∧
        event.verdict? =
            some { accepted, jobId := submission.jobId, nonce := submission.nonce } ∧
          (accepted = true ↔ moment.event.Accepts)
  /-- A verdict is told only when a share is settled. -/
  told : ∀ {answered moment event}, history[answered]? = some moment →
    .emit event ∈ moment.effects → event.verdict?.isSome = true →
      ∃ handed submission share answer, Settled history handed answered submission share answer
  /-- Any other answer changes nothing of the shares, and no event is told. -/
  foreign : ∀ {answered moment answer}, history[answered]? = some moment → moment.Hears answer →
    (∀ handed submission share, ¬Settled history handed answered submission share answer) →
      moment.effects.filterMap Client.Effect.event? = [] ∧
        moment.after.client.pending = moment.before.client.pending
  /-- When the client looks for shares that have waited too long, those are forgotten that have
  waited for 120 seconds, and no event is told. -/
  prunes : ∀ {moment}, moment ∈ history → moment.before.Prunes moment.now moment.event →
    moment.effects.filterMap Client.Effect.event? = [] ∧
      moment.after.client.pending = moment.before.client.pending.filter fun share =>
        moment.now - share.sentAt < inSeconds 120
  /-- At any moment, the client remembers the shares that were handed in and have been neither
  answered nor forgotten. -/
  pending : ∀ {here moment share}, history[here]? = some moment →
    (share ∈ moment.before.client.pending ↔
      ∃ handed submission, PoolSession.Remembers history handed here submission share)

namespace PoolSession

open Client (Effect)

/-! ## What an answer does -/

theorem act_answer {session : PoolSession} {now : Instant} {event : SessionEvent}
    {answer : PoolAnswer} (mining : session.client.phase = .mining)
    (answered : event.answer? = some answer) :
    session.act now event =
      ({ session with
          client :=
            (session.client.receiveAnswer now answer.id answer.result answer.error).1 },
        (session.client.receiveAnswer now answer.id answer.result answer.error).2) := by
  cases event with
  | closed | queue | take | wake | tick | shutdown => simp [SessionEvent.answer?] at answered
  | line text =>
      have answerIn : SessionEvent.answerIn? text = some answer := answered
      cases read : Incoming.ofLine text with
      | none => simp [SessionEvent.answerIn?, read] at answerIn
      | some incoming =>
          have content := answerIn?_of_content read
          rw [answerIn] at content
          split at content
          · next id result error held =>
              obtain rfl := Option.some.inj content
              simp only [PoolSession.act, read, told, Incoming.input, held, Client.step, mining,
                Client.stepMining]
          · cases content

theorem act_prunes {session : PoolSession} {now : Instant} {event : SessionEvent}
    (prunes : session.Prunes now event) :
    session.act now event =
      ({ session with client := (session.client.prune now).1 }, (session.client.prune now).2) := by
  obtain ⟨takes, due⟩ := prunes
  have mining := phase_of_takesShares takes
  cases event with
  | tick => simp only [PoolSession.act, takes, if_true]
  | wake =>
      have due : session.client.due ≤ now := due
      simp only [PoolSession.act, told, Client.step, mining, Client.stepMining, due, if_true]
  | line | closed | queue | take | shutdown => exact due.elim

/-- A verdict is told only when an answer comes to a share that the client remembers. -/
theorem Turn.settles_of_verdict {session after : PoolSession} {now : Instant}
    {event : SessionEvent} {effects : List Effect} (turn : session.Turn now event after effects)
    {told : PoolEvent} (isTold : .emit told ∈ effects) (verdict : told.verdict?.isSome = true) :
    ∃ answer share, session.client.phase = .mining ∧ event.answer? = some answer ∧
      share ∈ session.client.pending ∧ answer.id = share.id := by
  have weighty : (Effect.emit told).isAside = false := by
    cases told with
    | shareAccepted | shareRejected => rfl
    | subscribed | authorized | newJob | difficultyChanged | extranonceChanged | disconnected =>
        simp [PoolEvent.verdict?] at verdict
  cases turn with
  | aside same asides silent unawaited lasting unqueued untaken kept =>
      exact absurd isTold (Effect.notMem_asides asides weighty)
  | queued submission => exact absurd isTold List.not_mem_nil
  | ends asides fault going plain unmined unqueued untaken kept =>
      rcases List.mem_append.mp isTold with early | late
      · exact absurd early (Effect.notMem_asides plain weighty)
      · rcases Client.mem_finish late with same | ⟨note, same⟩
        · obtain rfl := Effect.emit.inj same
          simp [PoolEvent.verdict?] at verdict
        · cases same
  | @granted _ answer subscription waits answered grants =>
      obtain rfl : told = .subscribed subscription := by
        simp only [Client.subscribed, Client.enter, Client.request] at isTold
        split at isTold <;> simpa using isTold
      simp [PoolEvent.verdict?] at verdict
  | authorized waits answered grants =>
      obtain rfl : told = .authorized := by
        simp only [Client.authorized, Client.enter] at isTold
        split at isTold <;> simpa using isTold
      simp [PoolEvent.verdict?] at verdict
  | submits mining first => simp [Client.submit, Client.request] at isTold
  | @settles _ answer share mining answered found =>
      have same : share.id = answer.id := beq_iff_eq.mp (List.find?_some found :)
      exact ⟨answer, share, mining, answered, List.mem_of_find?_eq_some found, same.symm⟩
  | prunes prunes =>
      exact absurd isTold (Effect.notMem_asides (session.client.prune_asides now) weighty)

end PoolSession

namespace SessionMoment

variable {moment : SessionMoment}

theorem Submits.unique {submission other : Submission} {share otherShare : PendingShare}
    (submits : moment.Submits submission share) (also : moment.Submits other otherShare) :
    submission = other ∧ share = otherShare := by
  obtain rfl : submission = other := Option.some.inj (submits.first.symm.trans also.first)
  exact ⟨rfl, submits.kept.trans also.kept.symm⟩

theorem Hears.unique {answer other : PoolAnswer} (hears : moment.Hears answer)
    (also : moment.Hears other) : answer = other :=
  Option.some.inj (hears.answered.symm.trans also.answered)

/-- When an answer comes to a client that mines, it is looked up among the shares. -/
theorem Hears.act {answer : PoolAnswer} (hears : moment.Hears answer) :
    (moment.after.client, moment.effects) =
      moment.before.client.receiveAnswer moment.now answer.id answer.result answer.error := by
  rw [after, effects, PoolSession.act_answer hears.mining hears.answered]

end SessionMoment

namespace Settled

variable {history : List SessionMoment} {handed answered again : Nat}
  {submission other : Submission} {share sameShare : PendingShare} {answer otherAnswer : PoolAnswer}

/-- The answer that settles a share is the last thing that the client remembers it for. -/
theorem not_lt (settled : Settled history handed answered submission share answer)
    (also : Settled history handed again other sameShare otherAnswer) : ¬answered < again := by
  intro earlier
  obtain ⟨first, inFirst, submits⟩ := settled.remembered.submits
  obtain ⟨second, inSecond, alsoSubmits⟩ := also.remembered.submits
  obtain rfl : first = second := Option.some.inj (inFirst.symm.trans inSecond)
  obtain ⟨-, rfl⟩ := submits.unique alsoSubmits
  obtain ⟨moment, here, hears⟩ := settled.hears
  exact also.remembered.kept answered moment settled.remembered.earlier earlier here
    (.inl ⟨answer, hears, settled.its⟩)

/-- A share is settled at most once. -/
theorem unique (settled : Settled history handed answered submission share answer)
    (also : Settled history handed again other sameShare otherAnswer) : answered = again :=
  le_antisymm (Nat.not_lt.mp (also.not_lt settled)) (Nat.not_lt.mp (settled.not_lt also))

/-- The first answer with the id of a share settles it, if the share is not forgotten before. -/
theorem exists_iff {moment : SessionMoment} (its : history[handed]? = some moment)
    (submits : moment.Submits submission share) :
    (∃ answered answer, Settled history handed answered submission share answer) ↔
      ∃ answered later answer, handed < answered ∧ history[answered]? = some later ∧
        later.Hears answer ∧ answer.id = share.id ∧
          ∀ between other, handed < between → between < answered →
            history[between]? = some other → ¬other.Forgets share := by
  constructor
  · rintro ⟨answered, answer, ⟨earlier, -, kept⟩, ⟨later, here, hears⟩, same⟩
    refine ⟨answered, later, answer, earlier, here, hears, same, ?_⟩
    exact fun between other behind before isOther forgets =>
      kept between other behind before isOther (.inr forgets)
  · classical
    rintro ⟨answered, later, answer, earlier, here, hears, same, kept⟩
    have comes : ∃ index, handed < index ∧ ∃ later answer, history[index]? = some later ∧
        later.Hears answer ∧ answer.id = share.id :=
      ⟨answered, earlier, later, answer, here, hears, same⟩
    obtain ⟨behind, first, firstAnswer, itsFirst, hearsFirst, sameFirst⟩ := Nat.find_spec comes
    have soon : Nat.find comes ≤ answered :=
      Nat.find_min' comes ⟨earlier, later, answer, here, hears, same⟩
    refine ⟨Nat.find comes, firstAnswer, ⟨behind, ⟨moment, its, submits⟩, ?_⟩,
      ⟨first, itsFirst, hearsFirst⟩, sameFirst⟩
    rintro between other after before isOther (⟨given, hearsOther, sameOther⟩ | forgets)
    · exact Nat.find_min comes before ⟨after, other, given, isOther, hearsOther, sameOther⟩
    · exact kept between other after (before.trans_le soon) isOther forgets

end Settled

namespace PoolSession

open Client (Effect)

variable {settings : PoolSettings} {begun : Instant} {events : List (Instant × SessionEvent)}
  {here : Nat} {moment : SessionMoment} {answer : PoolAnswer}

section Few

variable (few : (written settings begun events).length < 2 ^ 64)
include few

/-- Shares with the same id were handed in at the same moment. -/
theorem handed_unique {handed other : Nat} {first second : SessionMoment}
    {submission otherSubmission : Submission} {share otherShare : PendingShare}
    (inFirst : ((opened settings begun).moments events)[handed]? = some first)
    (submits : first.Submits submission share)
    (inSecond : ((opened settings begun).moments events)[other]? = some second)
    (alsoSubmits : second.Submits otherSubmission otherShare) (same : share.id = otherShare.id) :
    handed = other := by
  rcases Nat.lt_trichotomy handed other with before | equal | after
  · exact absurd same (UInt64.ne_of_lt (id_lt_id few inFirst submits inSecond alsoSubmits before))
  · exact equal
  · exact absurd same.symm
      (UInt64.ne_of_lt (id_lt_id few inSecond alsoSubmits inFirst submits after))

/-- The client remembers at most one share with an id. -/
theorem pending_unique
    (its : ((opened settings begun).moments events)[here]? = some moment)
    {share other : PendingShare} (member : share ∈ moment.before.client.pending)
    (also : other ∈ moment.before.client.pending) (same : share.id = other.id) : share = other := by
  obtain ⟨handed, submission, -, ⟨first, inFirst, submits⟩, -⟩ :=
    (mem_pending_before its share).mp member
  obtain ⟨otherHanded, otherSubmission, -, ⟨second, inSecond, alsoSubmits⟩, -⟩ :=
    (mem_pending_before its other).mp also
  obtain rfl := handed_unique few inFirst submits inSecond alsoSubmits same
  obtain rfl : first = second := Option.some.inj (inFirst.symm.trans inSecond)
  exact (submits.unique alsoSubmits).2

/-- When a share is settled, the verdict on it is told, and nothing else. -/
theorem verdict_of_settled {handed answered : Nat} {submission : Submission} {share : PendingShare}
    (settled : Settled ((opened settings begun).moments events) handed answered submission share
      answer)
    (its : ((opened settings begun).moments events)[answered]? = some moment) :
    ∃ event accepted, moment.effects = [.emit event] ∧
      event.verdict? = some { accepted, jobId := submission.jobId, nonce := submission.nonce } ∧
        (accepted = true ↔ moment.event.Accepts) := by
  have hears : moment.Hears answer := by
    obtain ⟨other, inOther, hears⟩ := settled.hears
    exact Option.some.inj (inOther.symm.trans its) ▸ hears
  have member : share ∈ moment.before.client.pending :=
    (mem_pending_before its share).mpr ⟨handed, submission, settled.remembered⟩
  have found : (moment.before.client.pending.find? fun share => share.id == answer.id) =
      some share := by
    cases its? : moment.before.client.pending.find? fun share => share.id == answer.id with
    | none =>
        exact absurd (beq_iff_eq.mpr settled.its.symm) (List.find?_eq_none.mp its? share member)
    | some other =>
        have same : other.id = answer.id := beq_iff_eq.mp (List.find?_some its? :)
        rw [pending_unique few its (List.mem_of_find?_eq_some its?) member
          (same.trans settled.its)]
  have act := hears.act
  simp only [Client.receiveAnswer, found, Prod.mk.injEq] at act
  obtain ⟨accepted, verdict, accepts⟩ :=
    Client.verdict?_verdict share (Duration.clamp (moment.now - share.sentAt)) answer
  obtain ⟨handing, -, submits⟩ := settled.remembered.submits
  have job : share.jobId = submission.jobId := by rw [submits.kept]
  have nonce : share.nonce = submission.nonce := by rw [submits.kept]
  rw [job, nonce] at verdict
  exact ⟨_, accepted, act.2, verdict, accepts.trans (SessionEvent.accepts_iff hears.answered).symm⟩

end Few

/-- A verdict is told only when a share is settled. -/
theorem settled_of_verdict {told : PoolEvent}
    (its : ((opened settings begun).moments events)[here]? = some moment)
    (isTold : .emit told ∈ moment.effects) (verdict : told.verdict?.isSome = true) :
    ∃ handed submission share answer,
      Settled ((opened settings begun).moments events) handed here submission share answer := by
  obtain ⟨answer, share, mining, answered, member, same⟩ :=
    moment.turn.settles_of_verdict isTold verdict
  obtain ⟨handed, submission, remembered⟩ := (mem_pending_before its share).mp member
  exact ⟨handed, submission, share, answer, remembered, ⟨moment, its, mining, answered⟩, same⟩

/-- An answer that settles no share changes nothing. -/
theorem foreign_answer
    (its : ((opened settings begun).moments events)[here]? = some moment)
    (hears : moment.Hears answer)
    (settlesNone : ∀ handed submission share,
      ¬Settled ((opened settings begun).moments events) handed here submission share answer) :
    moment.effects.filterMap Effect.event? = [] ∧
      moment.after.client.pending = moment.before.client.pending := by
  have missing : (moment.before.client.pending.find? fun share => share.id == answer.id) =
      none := by
    rw [List.find?_eq_none]
    intro share member same
    obtain ⟨handed, submission, remembered⟩ := (mem_pending_before its share).mp member
    exact settlesNone handed submission share
      ⟨remembered, ⟨moment, its, hears⟩, (beq_iff_eq.mp same).symm⟩
  have act := hears.act
  simp only [Client.receiveAnswer, missing, Prod.mk.injEq] at act
  rw [act.1, act.2]
  exact ⟨rfl, rfl⟩

/-- Which shares are left when the client has looked for those that have waited too long. -/
theorem pending_of_prunes (prunes : moment.before.Prunes moment.now moment.event) :
    moment.effects.filterMap Effect.event? = [] ∧
      moment.after.client.pending = moment.before.client.pending.filter fun share =>
        moment.now - share.sentAt < inSeconds 120 := by
  rw [SessionMoment.effects, SessionMoment.after, act_prunes prunes]
  constructor
  · simp [Client.prune, Effect.event?, List.filterMap_map, Function.comp_def]
  · refine List.filter_congr fun share member => ?_
    rw [Bool.eq_iff_iff, Bool.not_eq_true', decide_eq_true_iff, Client.isForgotten,
      decide_eq_false_iff_not, Nat.not_le, Client.answerTimeout]

/-- The ids of the requests in a session increase; each share goes out under an id of its own; and
shares are settled exactly by the first answers with their ids that come before they are
forgotten. -/
theorem run_settles_exactly (settings : PoolSettings) (begun : Instant)
    (events : List (Instant × SessionEvent))
    (few : (written settings begun events).length < 2 ^ 64) :
    ((written settings begun events).map Message.id? =
          (List.range' 1 (written settings begun events).length).map
            (fun id => some (UInt64.ofNat id)) ∧
        ((written settings begun events).filterMap Message.id?).Pairwise (· < ·)) ∧
      (∀ moment ∈ (opened settings begun).moments events, ∀ id params,
        .write (.request id "mining.submit" params) ∈ moment.effects ↔
          ∃ submission share, moment.Submits submission share ∧ share.id = id ∧
            params = submission.toJson) ∧
      SettlesExactly ((opened settings begun).moments events) := by
  refine ⟨⟨written_ids settings begun events, written_ids_increase few⟩, ?_, ?_⟩
  · intro moment member id params
    constructor
    · exact moment.turn.submits_of_written
    · rintro ⟨submission, share, submits, rfl, rfl⟩
      simp [submits.effects_eq]
  · constructor
    case once => exact Settled.unique
    case single =>
      rintro handed other answered submission otherSubmission share otherShare answer sameAnswer
        ⟨⟨-, ⟨first, inFirst, submits⟩, -⟩, ⟨moment, here, hears⟩, same⟩
        ⟨⟨-, ⟨second, inSecond, alsoSubmits⟩, -⟩, ⟨again, alsoHere, alsoHears⟩, alsoSame⟩
      obtain rfl : moment = again := Option.some.inj (here.symm.trans alsoHere)
      obtain rfl := hears.unique alsoHears
      exact handed_unique few inFirst submits inSecond alsoSubmits (same.symm.trans alsoSame)
    case settled_iff => exact Settled.exists_iff
    case verdict => exact verdict_of_settled few
    case told => exact settled_of_verdict
    case foreign => exact foreign_answer
    case prunes => exact fun _ => pending_of_prunes
    case pending => exact fun its => mem_pending_before its _

/-- A session in which a share is handed in, and then answers come: to a request that nobody made,
to the share, and to the share once more. -/
def sampleSession : List (Instant × SessionEvent) :=
  [(0, .line "\x7b\"id\":1,\"result\":[[],\"08\",4],\"error\":null\x7d"),
    (0, .line "\x7b\"id\":2,\"result\":true,\"error\":null\x7d"),
    (1, .queue { username := "u", jobId := "4f", extranonce2 := none, ntime := 5, nonce := 7 }),
    (2, .take),
    (3, .line "\x7b\"id\":9,\"result\":true,\"error\":null\x7d"),
    (4, .line "\x7b\"id\":3,\"result\":true,\"error\":null\x7d"),
    (5, .line "\x7b\"id\":3,\"result\":false,\"error\":null\x7d")]

def sampleSettings : PoolSettings :=
  { url := "stratum+tcp://pool:3333", username := "u", password := "x", userAgent := "miner",
    connectTimeout := 10 }

theorem run_settles_exactly_sample :
    (written sampleSettings 0 sampleSession).length < 2 ^ 64 ∧
      SettlesExactly ((opened sampleSettings 0).moments sampleSession) ∧
      (PoolSession.effects sampleSettings 0 sampleSession).filterMap
          (fun effect => effect.event?.bind PoolEvent.verdict?) =
        [{ accepted := true, jobId := "4f", nonce := 7 }] := by
  have few : (written sampleSettings 0 sampleSession).length < 2 ^ 64 := by decide +kernel
  refine ⟨few, (run_settles_exactly sampleSettings 0 sampleSession few).2.2, ?_⟩
  decide +kernel

end PoolSession

end StratumMiner
