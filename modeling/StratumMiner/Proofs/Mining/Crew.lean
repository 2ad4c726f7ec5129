import Mathlib
import StratumMiner.Proofs.Mining.Desk
import StratumMiner.Proofs.Mining.WorkerCourse

/-!
# A dispatcher and its workers

A crew is a dispatcher with the workers that it sends its orders to.  A call changes the dispatcher,
and with it the epoch that all workers see; then its order is handed round, to one worker after the
other.  Between any two of these actions the workers make steps, in any order, so a run of a crew is
any list of events.  An event that cannot happen changes nothing: a call waits until the order
before it has been handed round.

Beside the workers stands what they have followed.  The invariant of a run ties it to the orders:
every worker that is alive has been sent the orders in the order in which they were given, and has
in hand the work of the last that it followed, or a reason to have none.
-/

namespace StratumMiner

/-- A worker of a crew, with its ledger. -/
structure Member where
  worker : Worker
  ledger : Ledger
  /-- The orders that it has followed, oldest first. -/
  followed : List Order
  deriving Repr, DecidableEq

namespace Member

/-- A worker that has just started. -/
def start (settings : WorkerSettings) : Member :=
  { worker := (Worker.start settings).1, ledger := Ledger.blank, followed := [] }

/-- The orders that it has been sent, oldest first. -/
def told (member : Member) : List Order :=
  member.followed ++ member.worker.outstanding

/-- An order is sent to it; one that has exited gets nothing. -/
def tell (order : Order) (member : Member) : Member :=
  if member.worker.hasExited then member
  else { member with worker := member.worker.tell order }

/-- It makes a step. -/
def step (running : Bool) (epoch : UInt64) (member : Member) : Member :=
  let behind := Worker.record (member.worker, member.ledger) (.step running epoch)
  { worker := behind.1, ledger := behind.2
    followed := member.followed ++ member.worker.inHand?.toList }

end Member

/-- A dispatcher and its workers. -/
structure Crew where
  /-- Cleared once, to stop all workers. -/
  running : Bool
  desk : Desk
  /-- The order that is being handed round, and the number of the next worker to get it. -/
  round : Option (Order × Nat)
  members : List Member
  deriving Repr, DecidableEq

/-- What happens in a crew. -/
inductive CrewEvent where
  /-- The dispatcher is asked for something; that changes the epoch, if anything does. -/
  | call (call : DispatcherCall)
  /-- The order goes to the next worker, or has reached all of them. -/
  | deliver
  /-- A worker makes a step. -/
  | step (index : Nat)
  /-- The workers are to stop. -/
  | stop
  deriving Repr, DecidableEq

namespace Crew

/-- A new dispatcher with workers that have just started. -/
def start (epoch : UInt64) (settings : List WorkerSettings) : Crew :=
  { running := true, desk := Desk.opened epoch, round := none
    members := settings.map Member.start }

/-- The crew behind an event. -/
def act (crew : Crew) : CrewEvent → Crew
  | .call call =>
      match crew.round with
      | some _ => crew
      | none =>
          { crew with
            desk := crew.desk.serve call
            round := (crew.desk.dispatcher.serve call).2.map fun order => (order, 0) }
  | .deliver =>
      match crew.round with
      | none => crew
      | some (order, next) =>
          if next < crew.members.length then
            { crew with
              members := crew.members.modify next (Member.tell order)
              round := some (order, next + 1) }
          else { crew with round := none }
  | .step index =>
      { crew with
        members := crew.members.modify index (Member.step crew.running crew.desk.dispatcher.epoch) }
  | .stop => { crew with running := false }

/-- The crew behind a list of events. -/
def run (epoch : UInt64) (settings : List WorkerSettings) (events : List CrewEvent) : Crew :=
  events.foldl act (start epoch settings)

theorem run_concat (epoch : UInt64) (settings : List WorkerSettings) (events : List CrewEvent)
    (event : CrewEvent) :
    run epoch settings (events ++ [event]) = (run epoch settings events).act event := by
  rw [run, List.foldl_append]
  rfl

/-- The orders that the worker of this number should have been sent. -/
def due (crew : Crew) (index : Nat) : List Order :=
  match crew.round with
  | none => crew.desk.orders
  | some (_, next) => if index < next then crew.desk.orders else crew.desk.orders.dropLast

theorem due_prefix (crew : Crew) (index : Nat) : crew.due index <+: crew.desk.orders := by
  unfold due
  split
  · exact List.prefix_rfl
  · split
    · exact List.prefix_rfl
    · exact List.dropLast_prefix _

end Crew

namespace Member

/-- What a worker has in hand is the work of the last order that it followed.  One without work has
further orders to come, or was not told to work, or could not, or has done all of it. -/
structure Heeds (orders : List Order) (member : Member) : Prop where
  busy : ∀ work epoch, member.worker.task? = some (work, epoch) →
    member.followed.getLast? = some (.assign work epoch)
  idle : member.worker.task? = none →
    member.followed.length < orders.length ∨
      ∀ work epoch, member.followed.getLast? = some (.assign work epoch) →
        work.validate ≠ .ok () ∨ member.ledger.Exhausted member.worker.settings work

/-- A worker of a crew that has given these orders, of which it should have been sent those due. -/
structure Sound (orders due : List Order) (member : Member) : Prop where
  accounted : Worker.Accounted member.worker.settings (member.worker, member.ledger)
  told : member.worker.hasExited = false → member.told = due
  heeds : member.worker.hasExited = false → member.Heeds orders

variable {member : Member} {orders due : List Order} {order : Order} {dispatcher : Dispatcher}
  {start : UInt64}

theorem sound_start (settings : WorkerSettings) : (Member.start settings).Sound [] [] where
  accounted := Worker.run_accounted settings []
  told := fun _ => rfl
  heeds := fun _ =>
    { busy := fun work epoch task => absurd task (by simp [Member.start, Worker.start, Worker.task?,
        Worker.search?])
      idle := fun _ => .inr fun work epoch last => absurd last (by simp [Member.start]) }

/-- Another order is given, and nobody has been sent it yet. -/
theorem Sound.grow (sound : member.Sound orders due) (order : Order) :
    member.Sound (orders ++ [order]) due where
  accounted := sound.accounted
  told := sound.told
  heeds := fun alive =>
    { busy := (sound.heeds alive).busy
      idle := fun rests => by
        rcases (sound.heeds alive).idle rests with behind | reason
        · exact .inl (by rw [List.length_append]; omega)
        · exact .inr reason }

theorem hasExited_tell (order : Order) :
    (member.tell order).worker.hasExited = member.worker.hasExited := by
  unfold tell
  split <;> rfl

theorem told_tell (alive : member.worker.hasExited = false) (order : Order) :
    (member.tell order).told = member.told ++ [order] := by
  simp [tell, told, alive]

/-- The order is sent to it. -/
theorem Sound.tell (sound : member.Sound orders due) (order : Order) :
    (member.tell order).Sound orders (due ++ [order]) := by
  cases alive : member.worker.hasExited with
  | true =>
      have unchanged : member.tell order = member := if_pos alive
      rw [unchanged]
      exact ⟨sound.accounted, fun dead => absurd (alive.symm.trans dead) (by simp),
        fun dead => absurd (alive.symm.trans dead) (by simp)⟩
  | false =>
      have changed : member.tell order = { member with worker := member.worker.tell order } :=
        if_neg (by simp [alive])
      refine ⟨?_, fun _ => ?_, fun _ => ?_⟩
      · rw [changed]
        exact sound.accounted
      · rw [told_tell alive, sound.told alive]
      · rw [changed]
        exact ⟨(sound.heeds alive).busy, (sound.heeds alive).idle⟩

theorem told_step (member : Member) (running : Bool) (epoch : UInt64) :
    (member.step running epoch).told = member.told := by
  change (member.followed ++ member.worker.inHand?.toList) ++
    (member.worker.step running epoch).1.outstanding = member.told
  rw [Worker.outstanding_step, List.append_assoc]
  rfl

theorem hasExited_step (exited : member.worker.hasExited = true) (running : Bool)
    (epoch : UInt64) : (member.step running epoch).worker.hasExited = true := by
  have stage : member.worker.stage = .exited := by
    unfold Worker.hasExited at exited
    split at exited
    · assumption
    · exact absurd exited (by simp)
  simp only [step, Worker.record, Worker.step, stage, Worker.hasExited]

/-- A worker that finds its last order old has others to follow. -/
theorem Sound.behind (sound : member.Sound orders due) (sent : due <+: orders)
    (ordered : dispatcher.Ordered start orders) (alive : member.worker.hasExited = false)
    {followed : List Order} (begins : followed <+: member.told) (work : Work) {epoch : UInt64}
    (last : followed.getLast? = some (.assign work epoch)) (old : epoch ≠ dispatcher.epoch) :
    followed.length < orders.length := by
  have isPrefix : followed <+: orders := (sound.told alive ▸ begins).trans sent
  refine Nat.lt_of_le_of_ne isPrefix.length_le fun same => old ?_
  have all : followed = orders := isPrefix.eq_of_length same
  exact (ordered.numbered.getLast? (all ▸ last)).trans ordered.epoch.symm

theorem Sound.settings_step (sound : member.Sound orders due) (running : Bool) (epoch : UInt64) :
    (member.step running epoch).worker.settings = member.worker.settings :=
  (Worker.record_accounted sound.accounted (.step running epoch)).1

theorem followed_step_of_none (nothing : member.worker.inHand? = none) (running : Bool)
    (epoch : UInt64) : (member.step running epoch).followed = member.followed := by
  simp only [step, nothing, Option.toList_none, List.append_nil]

theorem followed_step_of_some (inHand : member.worker.inHand? = some order) (running : Bool)
    (epoch : UInt64) : (member.step running epoch).followed = member.followed ++ [order] := by
  simp only [step, inHand, Option.toList_some]

/-- A worker that makes a step without exiting still heeds the orders. -/
theorem Sound.heeds_step (sound : member.Sound orders due) (sent : due <+: orders)
    (ordered : dispatcher.Ordered start orders) (alive : member.worker.hasExited = false)
    (running : Bool)
    (awake : (member.step running dispatcher.epoch).worker.hasExited = false) :
    (member.step running dispatcher.epoch).Heeds orders := by
  have heeds := sound.heeds alive
  have begins : (member.step running dispatcher.epoch).followed <+: member.told :=
    member.told_step running dispatcher.epoch ▸ List.prefix_append _ _
  have owner := sound.settings_step running dispatcher.epoch
  cases Worker.step_course sound.accounted running dispatcher.epoch with
  | exits exited => exact absurd (exited.symm.trans awake) (by simp)
  | keeps nothing task entries =>
      have followed := member.followed_step_of_none nothing running dispatcher.epoch
      constructor
      · intro work epoch busy
        rw [followed]
        exact heeds.busy work epoch (task.symm.trans busy)
      · intro rests
        have rested := task.symm.trans rests
        have same : (member.step running dispatcher.epoch).ledger.stints =
            member.ledger.stints := entries rested
        rw [followed, owner]
        simpa only [Ledger.Exhausted, same] using heeds.idle rested
  | @takesUp work inHand task =>
      have followed := member.followed_step_of_some inHand running dispatcher.epoch
      have begun : (member.step running dispatcher.epoch).worker.task? =
          some (work, dispatcher.epoch) := task
      constructor
      · intro other epoch busy
        obtain ⟨rfl, rfl⟩ := Prod.mk.inj (Option.some.inj (begun.symm.trans busy))
        rw [followed, List.getLast?_concat]
      · intro rests
        exact absurd (begun.symm.trans rests) (by simp)
  | @turnsDown order inHand rests reason =>
      have followed := member.followed_step_of_some inHand running dispatcher.epoch
      constructor
      · intro work epoch busy
        exact absurd (rests.symm.trans busy) (by simp)
      · intro _
        by_cases old : ∃ work epoch, order = .assign work epoch ∧ epoch ≠ dispatcher.epoch
        · obtain ⟨work, epoch, rfl, old⟩ := old
          refine .inl (sound.behind sent ordered alive begins work ?_ old)
          rw [followed, List.getLast?_concat]
        · refine .inr fun work epoch last => .inl ?_
          rw [followed, List.getLast?_concat, Option.some.injEq] at last
          exact (reason work epoch last).resolve_left fun other => old ⟨work, epoch, last, other⟩
  | @superseded work epoch nothing task old rests =>
      have followed := member.followed_step_of_none nothing running dispatcher.epoch
      constructor
      · intro work epoch busy
        exact absurd (rests.symm.trans busy) (by simp)
      · intro _
        refine .inl (sound.behind sent ordered alive begins work ?_ old)
        rw [followed]
        exact heeds.busy work epoch task
  | @exhausted work epoch nothing task rests all =>
      have followed := member.followed_step_of_none nothing running dispatcher.epoch
      constructor
      · intro work epoch busy
        exact absurd (rests.symm.trans busy) (by simp)
      · intro _
        refine .inr fun other otherEpoch last => .inr ?_
        rw [followed, heeds.busy work epoch task] at last
        obtain ⟨rfl, -⟩ := Order.assign.inj (Option.some.inj last)
        exact all

/-- It makes a step. -/
theorem Sound.step (sound : member.Sound orders due) (sent : due <+: orders)
    (ordered : dispatcher.Ordered start orders) (running : Bool) :
    (member.step running dispatcher.epoch).Sound orders due := by
  have accounted := Worker.record_accounted sound.accounted (.step running dispatcher.epoch)
  have alive (awake : (member.step running dispatcher.epoch).worker.hasExited = false) :
      member.worker.hasExited = false := by
    by_contra exited
    rw [hasExited_step (by simpa using exited)] at awake
    exact absurd awake (by simp)
  refine ⟨?_, fun awake => ?_, fun awake => ?_⟩
  · rw [sound.settings_step]
    exact accounted
  · rw [told_step, sound.told (alive awake)]
  · exact sound.heeds_step sent ordered (alive awake) running awake

/-- The work that a worker has in hand behind a step it had before, or it has just followed the
assignment of it, and the assignment bears the epoch that the worker saw. -/
theorem Sound.task_step (sound : member.Sound orders due) {running : Bool}
    {epoch workEpoch : UInt64} {work : Work}
    (task : (member.step running epoch).worker.task? = some (work, workEpoch)) :
    member.worker.inHand? = none ∧ member.worker.task? = some (work, workEpoch) ∨
      member.worker.inHand? = some (.assign work workEpoch) ∧ workEpoch = epoch := by
  cases Worker.step_course sound.accounted running epoch with
  | exits exited =>
      have gone : (member.step running epoch).worker.task? = none :=
        Worker.task?_of_hasExited exited
      exact absurd (gone.symm.trans task) (by simp)
  | keeps nothing same entries => exact .inl ⟨nothing, same.symm.trans task⟩
  | takesUp inHand begun =>
      obtain ⟨rfl, rfl⟩ := Prod.mk.inj (Option.some.inj (Eq.trans begun.symm task))
      exact .inr ⟨inHand, rfl⟩
  | turnsDown inHand rests reason => exact absurd (rests.symm.trans task) (by simp)
  | superseded nothing had old rests => exact absurd (rests.symm.trans task) (by simp)
  | exhausted nothing had rests all => exact absurd (rests.symm.trans task) (by simp)

/-- A worker that has followed all orders is at the work of the last assignment since the last order
to idle, or has a reason to rest. -/
theorem Heeds.settled (heeds : member.Heeds orders) (ordered : dispatcher.Ordered start orders)
    (all : member.followed = orders) :
    (∃ work, member.worker.task? = some (work, dispatcher.epoch) ∧
        (Order.sinceIdle orders).getLast? = some (.assign work dispatcher.epoch)) ∨
      member.worker.task? = none ∧
        (Order.sinceIdle orders = [] ∨
          ∃ work, (Order.sinceIdle orders).getLast? = some (.assign work dispatcher.epoch) ∧
            (work.validate ≠ .ok () ∨ member.ledger.Exhausted member.worker.settings work)) := by
  subst all
  rcases Order.sinceIdle_cases ordered.going with
    ⟨none, unassigned⟩ | ⟨work, workEpoch, last, since⟩
  · refine .inr ⟨?_, .inl none⟩
    by_contra busy
    obtain ⟨⟨work, workEpoch⟩, task⟩ := Option.ne_none_iff_exists'.mp busy
    exact unassigned work workEpoch (heeds.busy work workEpoch task)
  · obtain rfl : workEpoch = dispatcher.epoch :=
      (ordered.numbered.getLast? last).trans ordered.epoch.symm
    cases task : member.worker.task? with
    | some held =>
        have same := heeds.busy held.1 held.2 task
        rw [last, Option.some.injEq, Order.assign.injEq] at same
        exact .inl ⟨work, congrArg some (Prod.ext same.1.symm same.2.symm), since⟩
    | none =>
        refine .inr ⟨rfl, .inr ⟨work, since, ?_⟩⟩
        rcases heeds.idle task with behind | reason
        · exact absurd behind (Nat.lt_irrefl _)
        · exact reason work _ last

end Member

end StratumMiner
