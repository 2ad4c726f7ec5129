import Mathlib
import StratumMiner.Proofs.Miner.Actions
import StratumMiner.Proofs.Miner.RelayRun
import StratumMiner.Proofs.Mining.CrewRun

/-!
# The crew of a miner

The miner has queues, a client and statistics around its dispatcher and its workers.  Without these
it is a crew: each action of the miner is an event of the crew, or none at all, as long as the relay
does not fail for want of an epoch, which takes as many moves as there are epochs.  So what holds of
all runs of a crew holds of the miner, whatever the pool sends and however the parts take turns.
-/

namespace StratumMiner

namespace Miner

/-- The order that is being handed round, and the number of the next worker to get it. -/
def round? (miner : Miner) : Option (Order × Nat) :=
  match miner.relayStage with
  | .delivering order next _ _ => some (order, next)
  | .listening | .handing _ | .gone => none

/-- The miner consists of this crew and of parts that the crew knows nothing of. -/
structure Shows (miner : Miner) (crew : Crew) : Prop where
  running : crew.running = miner.running
  dispatcher : crew.desk.dispatcher = miner.relay.dispatcher
  round : crew.round = miner.round?
  workers : crew.members.map Member.worker = miner.workers

/-- Two states of the miner differ in nothing that belongs to the crew. -/
structure SameCrew (before after : Miner) : Prop where
  running : after.running = before.running
  dispatcher : after.relay.dispatcher = before.relay.dispatcher
  round : after.round? = before.round?
  workers : after.workers = before.workers

/-- The relay fails on the event that it takes. -/
def Fails (miner : Miner) (action : Action) : Prop :=
  action = .relayTakesEvent ∧
    ∃ event events, miner.events = event :: events ∧ miner.relay.failsOn event = true

variable {miner before after : Miner} {crew : Crew} {action : Action} {outcomes : List Outcome}

theorem Shows.same (shows : before.Shows crew) (same : SameCrew before after) :
    after.Shows crew where
  running := shows.running.trans same.running.symm
  dispatcher := shows.dispatcher.trans same.dispatcher.symm
  round := shows.round.trans same.round.symm
  workers := shows.workers.trans same.workers.symm

/-! ## The relay -/

/-- The relay serves a call: the crew has the order in hand, if there is one. -/
theorem Shows.serve (shows : before.Shows crew) (free : before.round? = none)
    {call : DispatcherCall} {order : Option Order} {last : Bool} {relay : Relay}
    (dispatcher : relay.dispatcher = (before.relay.dispatcher.serve call).1)
    (given : order = (before.relay.dispatcher.serve call).2) (events : List PoolEvent) :
    ({ before with events, relay }.relayGoes order last).Shows (crew.act (.call call)) := by
  have atRest : crew.round = none := shows.round.trans free
  have served : crew.act (.call call) =
      { crew with
        desk := crew.desk.serve call
        round := order.map fun order => (order, 0) } := by
    simp only [Crew.act, atRest, shows.dispatcher, given]
  rw [served]
  refine ⟨shows.running, ?_, ?_, shows.workers⟩
  · exact (congrArg (fun dispatcher => (Dispatcher.serve dispatcher call).1)
      shows.dispatcher).trans dispatcher.symm
  · cases order with
    | none => cases last <;> rfl
    | some order => rfl

/-- An event asks for a call, or for nothing that the crew knows of. -/
theorem Shows.hears (shows : before.Shows crew) (listening : before.relayStage = .listening)
    {event : PoolEvent} {relay : Relay} {order : Option Order} {notes : List RelayNote}
    (handled : before.relay.handleEvent event = (relay, order, notes)) (events : List PoolEvent) :
    ∃ called : List CrewEvent,
      ({ before with events, relay }.relayGoes order false).Shows (called.foldl Crew.act crew) := by
  have free : before.round? = none := by simp only [round?, listening]
  have heard := before.relay.handleEvent_hear event
  rw [handled, Dispatcher.hear] at heard
  cases asked : event.call? with
  | some call =>
      rw [asked] at heard
      exact ⟨[.call call], shows.serve free heard.1 heard.2 events⟩
  | none =>
      rw [asked] at heard
      obtain ⟨dispatcher, rfl⟩ := heard
      exact ⟨[], shows.same ⟨rfl, dispatcher, free.symm, rfl⟩⟩

/-- The worker of a member of the crew, by its number. -/
theorem Shows.member (shows : miner.Shows crew) {index : Nat} {worker : Worker}
    (found : miner.workers[index]? = some worker) :
    ∃ member, crew.members[index]? = some member ∧ member.worker = worker := by
  rw [← shows.workers, List.getElem?_map, Option.map_eq_some_iff] at found
  exact found

/-- When one member changes, so does one worker. -/
theorem Shows.workers_modify (shows : miner.Shows crew) {index : Nat} {member : Member}
    (found : crew.members[index]? = some member) (change : Member → Member) :
    (crew.members.modify index change).map Member.worker =
      miner.workers.set index (change member).worker := by
  obtain ⟨inside, rfl⟩ := List.getElem?_eq_some_iff.mp found
  rw [← shows.workers]
  refine List.ext_getElem? fun other => ?_
  simp only [List.getElem?_map, List.getElem?_modify, List.getElem?_set, List.length_map]
  by_cases here : index = other
  · subst here
    simp [inside]
  · simp [here]

/-- The crew hands its order to the next member. -/
theorem Shows.delivers (shows : before.Shows crew) {order : Order} {next given : Nat} {last : Bool}
    (delivering : before.relayStage = .delivering order next given last) {worker : Worker}
    (found : before.workers[next]? = some worker) (delivered : Nat) :
    Shows
      { before with
        workers := before.workers.set next (if worker.hasExited then worker else worker.tell order)
        relayStage := .delivering order (next + 1) delivered last } (crew.act .deliver) := by
  have round : crew.round = some (order, next) :=
    shows.round.trans (by simp only [round?, delivering])
  obtain ⟨member, present, rfl⟩ := shows.member found
  have inside : next < crew.members.length := (List.getElem?_eq_some_iff.mp present).1
  have delivers : crew.act .deliver =
      { crew with
        members := crew.members.modify next (Member.tell order)
        round := some (order, next + 1) } := by
    simp only [Crew.act, round, if_pos inside]
  rw [delivers]
  refine ⟨shows.running, shows.dispatcher, rfl, (shows.workers_modify present _).trans ?_⟩
  simp only [Member.tell]
  split <;> rfl

/-- Behind its last member, the crew has no order in hand any more. -/
theorem Shows.goesRound (shows : before.Shows crew) {order : Order} {next given : Nat}
    {last : Bool} (delivering : before.relayStage = .delivering order next given last)
    (nobody : before.workers[next]? = none) :
    (before.relayGoes none last).Shows (crew.act .deliver) := by
  have round : crew.round = some (order, next) :=
    shows.round.trans (by simp only [round?, delivering])
  have beyond : ¬next < crew.members.length := by
    rw [← List.length_map Member.worker, shows.workers]
    exact Nat.not_lt.mpr (List.getElem?_eq_none_iff.mp nobody)
  have ends : crew.act .deliver = { crew with round := none } := by
    simp only [Crew.act, round, if_neg beyond]
  rw [ends]
  exact ⟨shows.running, shows.dispatcher, by cases last <;> rfl, shows.workers⟩

/-! ## All parts -/

/-- Every action of the miner is an event of its crew, or none, unless the relay fails. -/
theorem Acted.shows (acted : Acted before action after outcomes) (whole : ¬before.Fails action)
    (shows : before.Shows crew) :
    ∃ events : List CrewEvent, after.Shows (events.foldl Crew.act crew) := by
  cases acted with
  | noted | wrote | emitted | unheard | hungUp | skipped | read | closed | took | woke | gaveUp
  | withdrew | stopped =>
      exact ⟨[], shows.same ⟨rfl, rfl, rfl, rfl⟩⟩
  | heard listening queue handled => exact shows.hears listening handled _
  | failed listening queue fails => exact absurd ⟨rfl, _, _, queue, fails⟩ whole
  | bereft listening queue =>
      have free : before.round? = none := by simp only [round?, listening]
      have given : some Order.idle = (before.relay.dispatcher.serve .idle).2 := rfl
      refine ⟨[.call .idle], shows.serve free ?_ given before.events⟩
      rfl
  | submitted listening | dropped listening | left listening =>
      have free : before.round? = none := by simp only [round?, listening]
      exact ⟨[], shows.same ⟨rfl, rfl, free.symm, rfl⟩⟩
  | refused handing | queued handing =>
      have free : before.round? = none := by simp only [round?, handing]
      exact ⟨[], shows.same ⟨rfl, rfl, free.symm, rfl⟩⟩
  | @passedOver order next delivered last worker delivering found exited =>
      have behind := shows.delivers delivering found delivered
      obtain ⟨there, stays⟩ := List.getElem?_eq_some_iff.mp found
      rw [if_pos exited, ← stays, List.set_getElem_self] at behind
      exact ⟨[.deliver], behind⟩
  | @delivered order next delivered last worker delivering found awake =>
      have behind := shows.delivers delivering found (delivered + 1)
      rw [if_neg (by simp [awake])] at behind
      exact ⟨[.deliver], behind⟩
  | wentRound delivering nobody => exact ⟨[.deliver], shows.goesRound delivering nobody⟩
  | @worked index worker statistics shares outcomes found counted silent =>
      obtain ⟨member, present, rfl⟩ := shows.member found
      refine ⟨[.step index], shows.running, shows.dispatcher, shows.round, ?_⟩
      rw [← shows.running, ← shows.dispatcher]
      exact shows.workers_modify present _

/-- What a miner can have come to that began with workers of these settings: its parts act, things
happen on its connection, and it is told to stop.  Its relay does not fail. -/
inductive Reached (settings : List WorkerSettings) : Miner → Prop where
  | starts {miner : Miner} (running : miner.running = true)
      (dispatcher : miner.relay.dispatcher = Dispatcher.initial 0)
      (listening : miner.relayStage = .listening)
      (workers : miner.workers = settings.map fun owner => (Worker.start owner).1) :
      Reached settings miner
  | acts {before after : Miner} {action : Action} {outcomes : List Outcome}
      (reached : Reached settings before) (whole : ¬before.Fails action)
      (acted : before.act? action = some (after, outcomes)) : Reached settings after
  | connects {before : Miner} (reached : Reached settings before) (client : Client) (link : Link) :
      Reached settings { before with client, link }
  | stops {before : Miner} (reached : Reached settings before) :
      Reached settings { before with running := false }

/-- Every run of a miner is a run of its crew. -/
theorem Reached.shows {settings : List WorkerSettings} (reached : Reached settings miner) :
    ∃ events, miner.Shows (Crew.run 0 settings events) := by
  induction reached with
  | starts running dispatcher listening workers =>
      refine ⟨[], running.symm, dispatcher.symm, ?_, ?_⟩
      · simp only [round?, listening]
        rfl
      · rw [workers]
        exact List.map_map
  | acts reached whole acted ih =>
      obtain ⟨events, shows⟩ := ih
      obtain ⟨more, behind⟩ := (act?_acted acted).shows whole shows
      refine ⟨events ++ more, ?_⟩
      rw [Crew.run, List.foldl_append]
      exact behind
  | connects reached client link ih =>
      obtain ⟨events, shows⟩ := ih
      exact ⟨events, shows.running, shows.dispatcher, shows.round, shows.workers⟩
  | stops reached ih =>
      obtain ⟨events, shows⟩ := ih
      refine ⟨events ++ [.stop], ?_⟩
      rw [Crew.run_concat]
      exact ⟨rfl, shows.dispatcher, shows.round, shows.workers⟩

/-- The relay of a miner does not fail before its orders have moved the epoch through all values. -/
theorem Reached.moves_of_fails {settings : List WorkerSettings} (reached : Reached settings miner)
    (fails : miner.Fails action) :
    ∃ events, miner.Shows (Crew.run 0 settings events) ∧
      2 ^ 64 ≤ (Crew.run 0 settings events).desk.orders.countP Order.movesEpoch + 1 := by
  obtain ⟨events, shows⟩ := reached.shows
  obtain ⟨-, event, others, -, failsOn⟩ := fails
  have last := Relay.isInLastEpoch_of_failsOn failsOn
  have epoch := (Crew.run_sound 0 settings events).ordered.epoch
  rw [← shows.dispatcher, Dispatcher.isInLastEpoch_iff, epoch, Order.epochBehind,
    UInt64.zero_add, UInt64.toNat_ofNat'] at last
  exact ⟨events, shows, last.ge.trans (Nat.add_le_add_right (Nat.mod_le _ _) 1)⟩

end Miner

end StratumMiner
