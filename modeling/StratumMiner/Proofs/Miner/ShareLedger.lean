import Mathlib
import StratumMiner.Proofs.Miner.SystemSession
import StratumMiner.Proofs.Pool.Tally

/-!
# The ledger of shares

A share that the relay takes is stale or handed in.  One that is handed in is in the hand of the
relay, then in the queue of submissions, then with the client until its answer comes, and its
verdict is on its way to the relay until it is counted as accepted or rejected.  Each action of the
miner moves a share from one of these places to the next, so the counters balance with what is under
way.
-/

namespace StratumMiner

/-- No counter of shares has come round. -/
structure Statistics.CountsUp (before after : Statistics) : Prop where
  submitted : before.submitted ≤ after.submitted
  accepted : before.accepted ≤ after.accepted
  rejected : before.rejected ≤ after.rejected
  stale : before.stale ≤ after.stale

instance (before after : Statistics) : Decidable (before.CountsUp after) :=
  decidable_of_iff
    (before.submitted ≤ after.submitted ∧ before.accepted ≤ after.accepted ∧
      before.rejected ≤ after.rejected ∧ before.stale ≤ after.stale)
    ⟨fun ⟨submitted, accepted, rejected, stale⟩ => ⟨submitted, accepted, rejected, stale⟩,
      fun ⟨submitted, accepted, rejected, stale⟩ => ⟨submitted, accepted, rejected, stale⟩⟩

/-- A counter that has not come round counts one more. -/
theorem toNat_succ_of_le {counter : UInt64} (up : counter ≤ counter + 1) :
    (counter + 1).toNat = counter.toNat + 1 := by
  rw [UInt64.le_iff_toNat_le, UInt64.toNat_add] at up
  rw [UInt64.toNat_add]
  have bound := counter.toNat_lt
  simp only [UInt64.toNat_one] at up ⊢
  omega

/-- How many submissions the relay has in its hand. -/
def RelayStage.inHand : RelayStage → Nat
  | .handing _ => 1
  | .listening | .delivering _ _ _ _ | .gone => 0

namespace Miner

open Client.Effect (verdicts)

variable {before after : Miner} {outcomes : List Outcome} {now : Instant} {action : Action}
  {taken forgotten : Nat}

/-- How many shares the relay takes by an action. -/
def takenBy : Action → Nat
  | .relayTakesShare => 1
  | _ => 0

/-- How many shares the client forgets by an action. -/
def forgottenBy (miner : Miner) : Action → Nat
  | .clientWakes now => miner.session.forgotten now .wake
  | _ => 0

/-- The counters and what is under way balance, less what was lost when the session ended. -/
structure Ledger (miner : Miner) (taken forgotten : Nat) : Prop where
  taken : taken =
    miner.relay.statistics.submitted.toNat + miner.relay.statistics.stale.toNat
  balance : ∃ lost, (miner.client.outcome? = none → lost = 0) ∧
    miner.relay.statistics.submitted.toNat =
      miner.relay.statistics.accepted.toNat + miner.relay.statistics.rejected.toNat +
        (miner.submissions.length + miner.relayStage.inHand) + miner.client.pending.length +
        (PoolEvent.verdicts miner.events + verdicts miner.outbox) + forgotten + lost
  numbered : ∃ sent, miner.session.Numbered sent ∧
    sent + (miner.submissions.length + miner.relayStage.inHand) ≤
      miner.relay.statistics.submitted.toNat

/-! ## The client -/

/-- Whatever the client attends to, the ledger balances. -/
theorem Ledger.client {event : SessionEvent} (ledger : before.Ledger taken forgotten)
    (idle : before.outbox = []) (turn : ClientTurn before after now event)
    (unqueued : event.queued? = none) :
    after.Ledger taken (forgotten + before.session.forgotten now event) := by
  obtain ⟨taken, ⟨lost, losing, balance⟩, sent, numbered, few⟩ := ledger
  have acts := PoolSession.act_turn before.session now event
  rw [← turn.session, ← turn.outbox] at acts
  obtain ⟨count, numberedAfter, fewAfter⟩ := acts.numbered numbered
  have bound := before.relay.statistics.submitted.toNat_lt
  have conserves := acts.conserves (numbered.distinct (by omega))
  rw [unqueued, Option.toList_none, List.length_nil] at conserves fewAfter
  change after.submissions.length + after.client.pending.length + verdicts after.outbox + _ =
    before.submissions.length + before.client.pending.length + 0 at conserves
  change count + after.submissions.length ≤ sent + before.submissions.length + 0 at fewAfter
  simp only [idle, Client.Effect.verdicts_nil] at balance
  refine ⟨?_, ⟨lost, fun lasts => losing (acts.outcome?_eq_none lasts), ?_⟩, count, numberedAfter,
    ?_⟩
  · rw [turn.relay]
    exact taken
  · rw [turn.relay, turn.events, turn.relayStage]
    omega
  · rw [turn.relay, turn.relayStage]
    omega

/-- The client gets something done, and no verdict is lost unless the session is over. -/
theorem Ledger.performed {effect : Client.Effect} {others : List Client.Effect}
    (ledger : before.Ledger taken forgotten) (outbox : before.outbox = effect :: others)
    (kept : verdicts [effect] = 0 ∨ before.client.outcome? ≠ none) :
    Ledger { before with outbox := others } taken forgotten := by
  obtain ⟨taken, ⟨lost, losing, balance⟩, sent, numbered, few⟩ := ledger
  rw [outbox, Client.Effect.verdicts_cons] at balance
  refine ⟨taken, ⟨lost + verdicts [effect], fun lasts => ?_, by simp only; omega⟩, sent, numbered,
    few⟩
  have nothing : verdicts [effect] = 0 := kept.resolve_right fun ended => ended lasts
  rw [losing lasts, nothing]

/-- A verdict goes to the relay. -/
theorem Ledger.emits {event : PoolEvent} {others : List Client.Effect}
    (ledger : before.Ledger taken forgotten) (outbox : before.outbox = .emit event :: others) :
    Ledger { before with events := before.events ++ [event], outbox := others } taken
      forgotten := by
  obtain ⟨taken, ⟨lost, losing, balance⟩, sent, numbered, few⟩ := ledger
  have moved : verdicts [.emit event] = PoolEvent.verdicts [event] := rfl
  rw [outbox, Client.Effect.verdicts_cons] at balance
  refine ⟨taken, ⟨lost, losing, ?_⟩, sent, numbered, few⟩
  simp only [PoolEvent.verdicts_append]
  omega

/-- A client that gives up leaves what it still had to do. -/
theorem Ledger.finishes (ledger : before.Ledger taken forgotten) (fault : Option PoolFault) :
    (before.clientGoes (before.client.finish fault)).Ledger taken forgotten := by
  obtain ⟨taken, ⟨lost, losing, balance⟩, sent, numbered, few⟩ := ledger
  have quiet := before.client.verdicts_finish fault
  have waiting : (before.client.finish fault).1.pending = before.client.pending := rfl
  have ended : PoolSession.Numbered
      { before.session with client := (before.client.finish fault).1 } sent :=
    numbered.stay rfl (.refl _) (.inr (.inr ⟨fault, rfl⟩))
  refine ⟨taken, ⟨lost + verdicts before.outbox, fun lasts => ?_, ?_⟩, sent, ended, few⟩
  · simp [clientGoes, Client.outcome?, Client.finish, Client.enter] at lasts
  · simp only [clientGoes, quiet, waiting]
    omega

/-! ## The relay -/

/-- What the relay makes of an event counts its verdict, if it is one. -/
theorem handleEvent_counts (relay : Relay) (event : PoolEvent)
    (up : relay.statistics.CountsUp (relay.handleEvent event).1.statistics) :
    (relay.handleEvent event).1.statistics.submitted = relay.statistics.submitted ∧
      (relay.handleEvent event).1.statistics.stale = relay.statistics.stale ∧
      (relay.handleEvent event).1.statistics.accepted.toNat +
          (relay.handleEvent event).1.statistics.rejected.toNat =
        relay.statistics.accepted.toNat + relay.statistics.rejected.toNat +
          PoolEvent.verdicts [event] := by
  have sameStatistics (subscription : Subscription) :
      (relay.takeSubscription subscription).1.statistics = relay.statistics := by
    unfold Relay.takeSubscription
    split <;> rfl
  cases event with
  | shareAccepted jobId nonce latency =>
      refine ⟨rfl, rfl, ?_⟩
      have one : (relay.statistics.accepted + 1).toNat = _ := toNat_succ_of_le up.accepted
      have verdict : PoolEvent.verdicts [.shareAccepted jobId nonce latency] = 1 := rfl
      simp only [Relay.handleEvent, Statistics.countAccepted, Statistics.addLatency, one]
      omega
  | shareRejected jobId nonce reason latency =>
      refine ⟨rfl, rfl, ?_⟩
      have one : (relay.statistics.rejected + 1).toNat = _ := toNat_succ_of_le up.rejected
      have verdict : PoolEvent.verdicts [.shareRejected jobId nonce reason latency] = 1 := rfl
      simp only [Relay.handleEvent, Statistics.countRejected, Statistics.addLatency, one]
      omega
  | subscribed subscription | extranonceChanged subscription =>
      rw [Relay.handleEvent, sameStatistics]
      exact ⟨rfl, rfl, rfl⟩
  | authorized | newJob | difficultyChanged | disconnected => exact ⟨rfl, rfl, rfl⟩

/-- The dispatcher does not fail on a verdict. -/
theorem verdicts_of_failsOn {relay : Relay} {event : PoolEvent}
    (fails : relay.failsOn event = true) : PoolEvent.verdicts [event] = 0 := by
  cases event with
  | shareAccepted | shareRejected => simp [Relay.failsOn] at fails
  | subscribed | authorized | newJob | difficultyChanged | extranonceChanged | disconnected => rfl

theorem inHand_relayGoes (miner : Miner) (order : Option Order) (last : Bool) :
    (miner.relayGoes order last).relayStage.inHand = 0 := by
  unfold relayGoes
  cases order with
  | some order => rfl
  | none => cases last <;> rfl

/-- The relay counts a verdict when it takes the event. -/
theorem Ledger.hears {event : PoolEvent} {events : List PoolEvent} {relay : Relay}
    {stage : RelayStage} (ledger : before.Ledger taken forgotten)
    (listening : before.relayStage = .listening) (queue : before.events = event :: events)
    (submitted : relay.statistics.submitted = before.relay.statistics.submitted)
    (stale : relay.statistics.stale = before.relay.statistics.stale)
    (settled : relay.statistics.accepted.toNat + relay.statistics.rejected.toNat =
      before.relay.statistics.accepted.toNat + before.relay.statistics.rejected.toNat +
        PoolEvent.verdicts [event])
    (empty : stage.inHand = 0) :
    Ledger { before with events, relay, relayStage := stage } taken forgotten := by
  obtain ⟨taken, ⟨lost, losing, balance⟩, sent, numbered, few⟩ := ledger
  rw [listening] at balance few
  rw [queue, PoolEvent.verdicts_cons] at balance
  refine ⟨?_, ⟨lost, losing, ?_⟩, sent, numbered, ?_⟩
  · simp only [submitted, stale]
    exact taken
  · have nothing : RelayStage.listening.inHand = 0 := rfl
    simp only [submitted, settled, empty]
    omega
  · simp only [submitted, empty]
    exact few

/-- A share that is handed in is in the hand of the relay. -/
theorem Ledger.submits {shares : List Share} {submission : Submission}
    (ledger : before.Ledger taken forgotten) (listening : before.relayStage = .listening)
    (up : before.relay.statistics.submitted ≤ before.relay.statistics.submitted + 1) :
    Ledger
      { before with
        shares
        relay := { before.relay with statistics := before.relay.statistics.countSubmitted }
        relayStage := .handing submission } (taken + 1) forgotten := by
  obtain ⟨taken, ⟨lost, losing, balance⟩, sent, numbered, few⟩ := ledger
  rw [listening] at balance few
  have one := toNat_succ_of_le up
  refine ⟨?_, ⟨lost, losing, ?_⟩, sent, numbered, ?_⟩
  all_goals
    simp only [Statistics.countSubmitted, one, RelayStage.inHand] at balance few ⊢
    omega

/-- A share that is stale is only counted. -/
theorem Ledger.drops {shares : List Share} (ledger : before.Ledger taken forgotten)
    (listening : before.relayStage = .listening)
    (up : before.relay.statistics.stale ≤ before.relay.statistics.stale + 1) :
    Ledger
      { before with
        shares
        relay := { before.relay with statistics := before.relay.statistics.countStale }
        relayStage := .listening } (taken + 1) forgotten := by
  obtain ⟨taken, ⟨lost, losing, balance⟩, sent, numbered, few⟩ := ledger
  rw [listening] at balance few
  have one := toNat_succ_of_le up
  refine ⟨?_, ⟨lost, losing, balance⟩, sent, numbered, few⟩
  simp only [Statistics.countStale, one, taken]
  exact Nat.add_assoc _ _ _

/-- A submission that nobody will take is lost. -/
theorem Ledger.refused {submission : Submission} (ledger : before.Ledger taken forgotten)
    (handing : before.relayStage = .handing submission) (ended : before.client.outcome? ≠ none) :
    Ledger { before with relayStage := .listening } taken forgotten := by
  obtain ⟨taken, ⟨lost, losing, balance⟩, sent, numbered, few⟩ := ledger
  rw [handing] at balance few
  simp only [RelayStage.inHand] at balance few
  refine ⟨taken, ⟨lost + 1, fun lasts => absurd lasts ended, ?_⟩, sent, numbered, ?_⟩
  all_goals
    simp only [RelayStage.inHand]
    omega

/-- A submission goes from the hand of the relay to the queue. -/
theorem Ledger.queues {submission : Submission} (ledger : before.Ledger taken forgotten)
    (handing : before.relayStage = .handing submission) :
    Ledger
      { before with
        submissions := before.submissions ++ [submission], relayStage := .listening }
      taken forgotten := by
  obtain ⟨taken, ⟨lost, losing, balance⟩, sent, numbered, few⟩ := ledger
  rw [handing] at balance few
  simp only [RelayStage.inHand] at balance few
  have queued : PoolSession.Numbered
      { before.session with waiting := before.submissions ++ [submission] } sent :=
    numbered.stay rfl (.refl _) (.inl rfl)
  refine ⟨taken, ⟨lost, losing, ?_⟩, sent, queued, ?_⟩
  all_goals
    simp only [RelayStage.inHand, List.length_append, List.length_singleton]
    omega

/-! ## All parts -/

/-- What moves no share leaves the ledger as it is. -/
structure SameBooks (before after : Miner) : Prop where
  session : after.session = before.session
  outbox : after.outbox = before.outbox
  events : after.events = before.events
  inHand : after.relayStage.inHand = before.relayStage.inHand
  shares : before.relay.statistics.SameShares after.relay.statistics

theorem Ledger.same (ledger : before.Ledger taken forgotten) (same : SameBooks before after) :
    after.Ledger taken forgotten := by
  obtain ⟨taken, ⟨lost, losing, balance⟩, sent, numbered, few⟩ := ledger
  obtain ⟨session, outbox, events, inHand, submitted, accepted, rejected, stale⟩ := same
  have client : after.client = before.client := congrArg PoolSession.client session
  have submissions : after.submissions = before.submissions := congrArg PoolSession.waiting session
  refine ⟨?_, ⟨lost, ?_, ?_⟩, sent, ?_, ?_⟩
  · rwa [submitted, stale]
  · rwa [client]
  · rwa [submitted, accepted, rejected, submissions, inHand, client, events, outbox]
  · rwa [session]
  · rwa [submissions, inHand, submitted]

/-- A client that takes no shares forgets none. -/
theorem forgotten_wake_of_unmined (unmined : before.client.takesShares = false) (now : Instant) :
    before.session.forgotten now .wake = 0 := by
  refine if_neg fun wakes => ?_
  exact absurd (wakes.1.symm.trans unmined) (by simp)

theorem outcome?_of_submissionsUnheard (unheard : before.submissionsUnheard = true) :
    before.client.outcome? ≠ none := by
  rw [submissionsUnheard, Bool.and_eq_true, Option.isSome_iff_ne_none] at unheard
  exact unheard.1

/-- Every action keeps the ledger, if no counter comes round. -/
theorem Ledger.act (ledger : before.Ledger taken forgotten)
    (acted : Acted before action after outcomes)
    (up : before.relay.statistics.CountsUp after.relay.statistics) :
    after.Ledger (taken + takenBy action) (forgotten + before.forgottenBy action) := by
  cases acted with
  | noted outbox | wrote outbox => exact ledger.performed outbox (.inl rfl)
  | unheard outbox gone ended => exact ledger.performed outbox (.inr ended)
  | emitted outbox => exact ledger.emits outbox
  | hungUp => exact ledger.finishes _
  | skipped => exact ledger.same ⟨rfl, rfl, rfl, rfl, .refl _⟩
  | read idle its => exact ledger.client idle (ClientTurn.read its _) rfl
  | closed idle => exact ledger.client idle (ClientTurn.closed before _ _) rfl
  | took idle queue takes => exact ledger.client idle (ClientTurn.took queue takes) rfl
  | woke idle => exact ledger.client idle (ClientTurn.woke before _) rfl
  | @gaveUp now event outbox going unmined =>
      rw [forgottenBy, forgotten_wake_of_unmined unmined]
      exact ledger.finishes _
  | withdrew idle unconnected =>
      obtain ⟨sent, numbered, -⟩ := ledger.numbered
      exact absurd unconnected numbered.connected
  | stopped idle => exact ledger.client idle (ClientTurn.stopped before _) rfl
  | @heard event events relay order notes listening queue handled =>
      have counts := handleEvent_counts before.relay event
      rw [handled] at counts
      obtain ⟨submitted, stale, settled⟩ := counts up
      exact ledger.hears listening queue submitted stale settled
        (inHand_relayGoes before order false)
  | failed listening queue fails =>
      refine ledger.hears listening queue rfl rfl ?_ rfl
      rw [verdicts_of_failsOn fails]
      rfl
  | bereft listening =>
      exact ledger.same ⟨rfl, rfl, rfl, by rw [inHand_relayGoes, listening]; rfl, .refl _⟩
  | submitted listening => exact ledger.submits listening up.submitted
  | dropped listening => exact ledger.drops listening up.stale
  | passedOver delivering | delivered delivering =>
      exact ledger.same ⟨rfl, rfl, rfl, by rw [delivering]; rfl, .refl _⟩
  | wentRound delivering =>
      exact ledger.same ⟨rfl, rfl, rfl, by rw [inHand_relayGoes, delivering]; rfl, .refl _⟩
  | refused handing unheard =>
      exact ledger.refused handing (outcome?_of_submissionsUnheard unheard)
  | queued handing => exact ledger.queues handing
  | left listening => exact ledger.same ⟨rfl, rfl, rfl, by rw [listening]; rfl, .refl _⟩
  | worked found counted => exact ledger.same ⟨rfl, rfl, rfl, rfl, counted⟩

/-- What a miner can have come to since its client began over a new connection, how many shares its
relay has taken and how many shares its client has forgotten.  Bytes come, the pool closes the
connection and the miner stops at any time; no counter of shares comes round. -/
inductive Handles (settings : PoolSettings) (begun : Instant) : Miner → Nat → Nat → Prop where
  | starts {miner : Miner} (session : miner.session = PoolSession.opened settings begun)
      (outbox : miner.outbox = ((Client.unconnected settings).start begun).2)
      (events : miner.events = []) (empty : miner.relayStage.inHand = 0)
      (uncounted : Statistics.empty.SameShares miner.relay.statistics) :
      Handles settings begun miner 0 0
  | acts {before after : Miner} {taken forgotten : Nat} {action : Action} {outcomes : List Outcome}
      (handles : Handles settings begun before taken forgotten)
      (acted : before.act? action = some (after, outcomes))
      (up : before.relay.statistics.CountsUp after.relay.statistics) :
      Handles settings begun after (taken + takenBy action)
        (forgotten + before.forgottenBy action)
  | connects {before : Miner} {taken forgotten : Nat}
      (handles : Handles settings begun before taken forgotten) (link : Link) :
      Handles settings begun { before with link } taken forgotten
  | stops {before : Miner} {taken forgotten : Nat}
      (handles : Handles settings begun before taken forgotten) :
      Handles settings begun { before with running := false } taken forgotten

variable {settings : PoolSettings} {begun : Instant} {miner : Miner}

theorem Handles.ledger (handles : Handles settings begun miner taken forgotten) :
    miner.Ledger taken forgotten := by
  induction handles with
  | @starts miner session outbox events empty uncounted =>
      have client : miner.client = ((Client.unconnected settings).start begun).1 :=
        congrArg PoolSession.client session
      have submissions : miner.submissions = [] := congrArg PoolSession.waiting session
      obtain ⟨submitted, accepted, rejected, stale⟩ := uncounted
      refine ⟨?_, ⟨0, fun _ => rfl, ?_⟩, 0, ?_, ?_⟩
      · rw [submitted, stale]
        rfl
      · rw [submitted, accepted, rejected, empty, submissions, client, events, outbox]
        rfl
      · rw [session]
        exact PoolSession.opened_numbered settings begun
      · rw [submitted, submissions, empty]
        rfl
  | acts handles acted up ih => exact ih.act (act?_acted acted) up
  | connects handles link ih => exact ⟨ih.taken, ih.balance, ih.numbered⟩
  | stops handles ih => exact ⟨ih.taken, ih.balance, ih.numbered⟩

/-- However the actions of the parts follow one another, every share that the relay has taken has
been counted as handed in or as stale; and as long as the session runs, the shares handed in are
those accepted and rejected, those on their way to the client, those that wait for an answer, those
whose verdicts are on their way to the relay, and those forgotten. -/
theorem Handles.balanced (handles : Handles settings begun miner taken forgotten) :
    taken = miner.relay.statistics.submitted.toNat + miner.relay.statistics.stale.toNat ∧
      (miner.client.outcome? = none →
        miner.relay.statistics.submitted.toNat =
          miner.relay.statistics.accepted.toNat + miner.relay.statistics.rejected.toNat +
            (miner.submissions.length + miner.relayStage.inHand) +
            miner.client.pending.length +
            (PoolEvent.verdicts miner.events + verdicts miner.outbox) + forgotten) ∧
      miner.relay.statistics.accepted.toNat + miner.relay.statistics.rejected.toNat ≤
        miner.relay.statistics.submitted.toNat := by
  obtain ⟨taken, ⟨lost, losing, balance⟩, -⟩ := handles.ledger
  refine ⟨taken, ?_, by omega⟩
  intro lasts
  rw [balance, losing lasts, Nat.add_zero]

/-! ## A run -/

/-- A miner, how many shares its relay has taken and how many its client has forgotten. -/
structure Handled where
  miner : Miner
  taken : Nat
  forgotten : Nat

/-- The miner when these bytes have arrived. -/
def receiving (miner : Miner) (bytes : Bytes) : Miner :=
  { miner with link := { miner.link with decoder := miner.link.decoder.append bytes } }

/-- Bytes arrive, and then one part acts. -/
def Handled.act? (handled : Handled) (cue : Bytes × Action) : Option Handled :=
  match (handled.miner.receiving cue.1).act? cue.2 with
  | some (miner, _) =>
      if handled.miner.relay.statistics.CountsUp miner.relay.statistics then
        some
          { miner, taken := handled.taken + takenBy cue.2,
            forgotten := handled.forgotten + (handled.miner.receiving cue.1).forgottenBy cue.2 }
      else none
  | none => none

/-- What a script of actions comes to. -/
theorem Handles.plays {first last : Handled} {script : List (Bytes × Action)}
    (handles : Handles settings begun first.miner first.taken first.forgotten)
    (played : script.foldlM Handled.act? first = some last) :
    Handles settings begun last.miner last.taken last.forgotten := by
  induction script generalizing first with
  | nil => exact Option.some.inj played ▸ handles
  | cons cue others ih =>
      rw [List.foldlM_cons] at played
      obtain ⟨next, its, rest⟩ := Option.bind_eq_some_iff.mp played
      refine ih ?_ rest
      unfold Handled.act? at its
      split at its
      · next after outcomes acted =>
          split at its
          · next up => exact Option.some.inj its ▸ (handles.connects _).acts acted up
          · exact absurd its (by simp)
      · exact absurd its (by simp)

/-- A line, as it arrives. -/
def arriving (line : String) : Bytes :=
  Utf8.encode line ++ [newline]

/-- The pool grants a subscription. -/
def subscriptionLine : Bytes :=
  arriving "\x7b\"id\":1,\"result\":[[],\"4128064f\",4],\"error\":null\x7d"

/-- The pool lets the user in. -/
def authorizationLine : Bytes :=
  arriving "\x7b\"id\":2,\"result\":true,\"error\":null\x7d"

/-- The pool accepts a share. -/
def acceptanceLine : Bytes :=
  arriving "\x7b\"id\":4,\"result\":true,\"error\":null\x7d"

/-- The pool rejects a share. -/
def rejectionLine : Bytes :=
  arriving "\x7b\"id\":5,\"result\":null,\"error\":[21,\"Job not found\",null]\x7d"

def ledgerSettings : PoolSettings :=
  { url := "stratum+tcp://pool:3333", username := "u", password := "x", userAgent := "miner",
    connectTimeout := 10 }

def ledgerShare (jobId : String) : Share :=
  { jobId, extranonce2 := none, ntime := 5, nonce := 7, digest := Vector.replicate 32 0 }

/-- A miner whose client begins while shares come from the workers, one of them of a job that is
over. -/
def ledgerMiner : Miner :=
  { running := true
    client := ((Client.unconnected ledgerSettings).start 0).1
    link := { decoder := .empty maxLineLength, closed := false, finished := false }
    outbox := ((Client.unconnected ledgerSettings).start 0).2
    events := []
    submissions := []
    hasMined := false
    relay := { username := "u", dispatcher := { Dispatcher.initial 0 with recent := ["4f"] },
               statistics := Statistics.empty }
    relayStage := .listening
    workers := []
    shares := ["4f", "4f", "4f", "3e", "4f", "4f", "4f"].map ledgerShare }

/-- Nothing arrives while the parts act. -/
def quietly (actions : List Action) : List (Bytes × Action) :=
  actions.map fun action => ([], action)

/-- The client is let in, and the relay hears of it. -/
def lettingIn : List (Bytes × Action) :=
  quietly [.clientActs, .clientActs] ++ [(subscriptionLine, .clientReads 0)] ++
    quietly [.clientActs, .clientActs, .clientActs, .clientActs] ++
    [(authorizationLine, .clientReads 0)] ++
    quietly [.clientActs, .clientActs, .clientActs, .clientActs, .relayTakesEvent, .relayTakesEvent]

/-- A share goes through the relay and the client to the pool. -/
def handingIn (now : Instant) : List (Bytes × Action) :=
  quietly [.relayTakesShare, .relayHandsOver, .clientTakesSubmission now, .clientActs, .clientActs]

/-- The pool answers a share. -/
def answering (now : Instant) (line : Bytes) : List (Bytes × Action) :=
  [(line, .clientReads now), ([], .clientActs)]

/-- The pool never answers the first share, accepts the second and rejects the third.  The fourth is
stale, and the others are on their way. -/
def ledgerScript : List (Bytes × Action) :=
  let late := inSeconds 120
  lettingIn ++ handingIn 0 ++ quietly [.clientWakes late, .clientActs] ++
    handingIn late ++ answering late acceptanceLine ++ quietly [.relayTakesEvent] ++
    handingIn late ++ answering late rejectionLine ++ quietly [.relayTakesShare] ++
    handingIn late ++ quietly [.relayTakesShare, .relayHandsOver, .relayTakesShare]

/-- Seven shares are in seven places: one is forgotten, one accepted and one stale, one waits for
its answer, the verdict on one is on its way, one is queued and one in the hand of the relay. -/
theorem Handles.balanced_sample : ∃ miner : Miner,
    Handles ledgerSettings 0 miner 7 1 ∧ miner.client.outcome? = none ∧
      7 = miner.relay.statistics.submitted.toNat + miner.relay.statistics.stale.toNat ∧
      miner.relay.statistics.submitted.toNat =
        miner.relay.statistics.accepted.toNat + miner.relay.statistics.rejected.toNat +
          (miner.submissions.length + miner.relayStage.inHand) + miner.client.pending.length +
          (PoolEvent.verdicts miner.events + verdicts miner.outbox) + 1 ∧
      miner.relay.statistics.stale = 1 ∧ miner.relay.statistics.accepted = 1 ∧
      miner.submissions.length = 1 ∧ miner.relayStage.inHand = 1 ∧
      miner.client.pending.length = 1 ∧ PoolEvent.verdicts miner.events = 1 := by
  have ends : (ledgerScript.foldlM Handled.act? ⟨ledgerMiner, 0, 0⟩).map (fun last =>
      ((last.taken, last.forgotten, last.miner.client.outcome?.isNone),
        (last.miner.relay.statistics.stale, last.miner.relay.statistics.accepted),
        (last.miner.submissions.length, last.miner.relayStage.inHand),
        (last.miner.client.pending.length, PoolEvent.verdicts last.miner.events))) =
      some ((7, 1, true), (1, 1), (1, 1), (1, 1)) := by
    decide +kernel
  obtain ⟨⟨miner, taken, forgotten⟩, played, facts⟩ := Option.map_eq_some_iff.mp ends
  simp only [Prod.mk.injEq] at facts
  obtain ⟨⟨rfl, rfl, lasts⟩, ⟨stale, accepted⟩, ⟨queued, inHand⟩, waiting, settled⟩ := facts
  have begins : Handles ledgerSettings 0 ledgerMiner 0 0 :=
    .starts rfl rfl rfl rfl ⟨rfl, rfl, rfl, rfl⟩
  have handles := begins.plays played
  obtain ⟨counted, balance, -⟩ := handles.balanced
  rw [Option.isNone_iff_eq_none] at lasts
  exact ⟨miner, handles, lasts, counted, balance lasts, stale, accepted, queued, inHand, waiting,
    settled⟩

end Miner

end StratumMiner
