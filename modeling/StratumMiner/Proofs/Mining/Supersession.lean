import Mathlib
import StratumMiner.Proofs.Mining.CrewRun
import StratumMiner.Proofs.Mining.InFlight

/-!
# How soon superseded work stops

Of the work that a call of the dispatcher makes worthless, a worker hashes at most the batch in
flight, and it sends no share but from that batch; when the flag is cleared, the same holds of all
work.

The gate of the flag stays closed for good.  The gate of the epoch is closed by an order that moves
the epoch, and the counter may come round to an old value later; but no call is served before the
order has reached all workers, and so the last look before a batch finds it in the inbox.
-/

namespace StratumMiner

/-- A step of a worker, with what it could see of the others. -/
structure Move where
  member : Member
  running : Bool
  epoch : UInt64
  deriving Repr, DecidableEq

/-- The batch that is hashed. -/
def Move.batch? (move : Move) : Option (List HeaderBytes) :=
  move.member.worker.batchNow?

/-- The shares that are sent. -/
def Move.shares (move : Move) : List Share :=
  (move.member.worker.step move.running move.epoch).2.filterMap Worker.Effect.share?

/-- All that is hashed and sent in a step is for this work. -/
structure Move.IsFor (work : Work) (move : Move) : Prop where
  batch : ∀ batch, move.batch? = some batch →
    ∃ attempts : List Attempt, batch = attempts.map work.headerBytes
  shares : ∀ share ∈ move.shares,
    ∃ attempt, work.hits attempt = true ∧ share = work.share attempt

namespace Member

variable {member : Member} {orders due : List Order}

/-- Whatever a worker hashes or sends is for the work of the last order that it followed. -/
theorem Sound.isFor (sound : member.Sound orders due) (running : Bool) (epoch : UInt64)
    {work : Work} {workEpoch : UInt64} (task : member.worker.task? = some (work, workEpoch)) :
    member.followed.getLast? = some (.assign work workEpoch) ∧
      Move.IsFor work ⟨member, running, epoch⟩ := by
  have alive : member.worker.hasExited = false := by
    by_contra exited
    rw [Worker.task?_of_hasExited (by simpa using exited)] at task
    exact absurd task (by simp)
  have inHand {search : Search} (held : member.worker.search? = some search) :
      search.work = work := by
    rw [Worker.task?, held, Option.map_some, Option.some.injEq] at task
    exact congrArg Prod.fst task
  refine ⟨(sound.heeds alive).busy work workEpoch task, ?_, ?_⟩
  · intro batch now
    obtain ⟨search, held, rfl⟩ := Worker.batchNow?_of_accounted sound.accounted now
    exact ⟨search.batch member.worker.settings, by rw [inHand held]⟩
  · intro share sent
    have unsent := (member.worker.step_sends running epoch).subset sent
    obtain ⟨search, held, attempt, hit, same⟩ := sound.accounted.2.hit_of_mem_unsent unsent
    rw [inHand held] at hit same
    exact ⟨attempt, hit, same⟩

/-- Without work a worker hashes and sends nothing. -/
theorem Sound.idles (sound : member.Sound orders due) (running : Bool) (epoch : UInt64)
    (rests : member.worker.task? = none) :
    Move.batch? ⟨member, running, epoch⟩ = none ∧ Move.shares ⟨member, running, epoch⟩ = [] := by
  have nothing (search : Search) : member.worker.search? ≠ some search := by
    intro held
    rw [Worker.task?, held] at rests
    exact absurd rests (by simp)
  constructor
  · by_contra some
    obtain ⟨batch, now⟩ := Option.ne_none_iff_exists'.mp some
    obtain ⟨search, held, -⟩ := Worker.batchNow?_of_accounted sound.accounted now
    exact nothing search held
  · refine List.eq_nil_iff_forall_not_mem.mpr fun share sent => ?_
    have unsent := (member.worker.step_sends running epoch).subset sent
    obtain ⟨search, held, -⟩ := sound.accounted.2.hit_of_mem_unsent unsent
    exact nothing search held

end Member

namespace Crew

/-- The step that the worker of this number makes in an event. -/
def move? (crew : Crew) (index : Nat) : CrewEvent → Option Move
  | .step other =>
      if other = index then
        crew.members[index]?.map fun member =>
          { member, running := crew.running, epoch := crew.desk.dispatcher.epoch }
      else none
  | _ => none

/-- The steps that the worker of this number makes in a list of events. -/
def moves (index : Nat) : Crew → List CrewEvent → List Move
  | _, [] => []
  | crew, event :: events =>
      (crew.move? index event).toList ++ moves index (crew.act event) events

variable {crew : Crew} {index : Nat} {member : Member} {start : UInt64}

theorem moves_concat (index : Nat) (crew : Crew) (events : List CrewEvent) (event : CrewEvent) :
    moves index crew (events ++ [event]) =
      moves index crew events ++ ((events.foldl act crew).move? index event).toList := by
  induction events generalizing crew with
  | nil => exact List.append_nil _
  | cons first events ih =>
      rw [List.cons_append, moves, ih, moves, List.append_assoc]
      rfl

/-- What an event means for one worker. -/
inductive Befalls (crew : Crew) (index : Nat) (event : CrewEvent) (member : Member) : Prop where
  | step
      (moves : crew.move? index event =
        some ⟨member, crew.running, crew.desk.dispatcher.epoch⟩)
      (behind : (crew.act event).members[index]? =
        some (member.step crew.running crew.desk.dispatcher.epoch))
  | told (order : Order) (rests : crew.move? index event = none)
      (behind : (crew.act event).members[index]? = some (member.tell order))
  | nothing (rests : crew.move? index event = none)
      (behind : (crew.act event).members[index]? = some member)

theorem act_befalls (found : crew.members[index]? = some member) (event : CrewEvent) :
    Befalls crew index event member := by
  cases event with
  | call call =>
      refine .nothing rfl ?_
      unfold act
      cases crew.round <;> exact found
  | deliver =>
      cases round : crew.round with
      | none => exact .nothing rfl (by simpa only [act, round] using found)
      | some handed =>
          obtain ⟨order, next⟩ := handed
          by_cases further : next < crew.members.length
          · by_cases here : next = index
            · subst here
              refine .told order rfl ?_
              simp only [act, round, if_pos further, List.getElem?_modify, found,
                Option.map_eq_map, Option.map_some, if_true]
            · refine .nothing rfl ?_
              simp [act, round, further, here, found]
          · exact .nothing rfl (by simpa only [act, round, if_neg further] using found)
  | step other =>
      by_cases here : other = index
      · refine .step ?_ ?_
        · simp [move?, here, found]
        · simp [act, here, found]
      · refine .nothing ?_ ?_
        · simp [move?, here]
        · simp [act, here, found]
  | stop => exact .nothing rfl found

/-! ## What is in flight -/

/-- A gate is closed to a worker as long as the worker is counted. -/
structure Shuts (gate : Gate) (index : Nat) (counted : Member → Bool) (holds : Crew → Prop) :
    Prop where
  act : ∀ crew event, holds crew → holds (crew.act event)
  barred : ∀ crew member, holds crew → crew.members[index]? = some member →
    counted member = true → member.worker.Barred gate crew.running crew.desk.dispatcher.epoch
  /-- A worker that is not counted is not counted later. -/
  tell : ∀ member order, counted (member.tell order) = true → counted member = true
  step : ∀ member running epoch, counted (member.step running epoch) = true →
    counted member = true

variable {gate : Gate} {counted : Member → Bool} {holds : Crew → Prop}

theorem Shuts.not_counted (shuts : Shuts gate index counted holds)
    (found : crew.members[index]? = some member) (out : counted member = false)
    (events : List CrewEvent) :
    (moves index crew events).filter (fun move => counted move.member) = [] := by
  induction events generalizing crew member with
  | nil => rfl
  | cons event events ih =>
      rw [moves, List.filter_append]
      cases act_befalls found event with
      | step moves behind =>
          have gone : counted (member.step crew.running crew.desk.dispatcher.epoch) = false := by
            by_contra still
            rw [shuts.step _ _ _ (by simpa using still)] at out
            exact absurd out (by simp)
          rw [moves, ih behind gone]
          simp [out]
      | told order rests behind =>
          have gone : counted (member.tell order) = false := by
            by_contra still
            rw [shuts.tell _ _ (by simpa using still)] at out
            exact absurd out (by simp)
          rw [rests, ih behind gone]
          rfl
      | nothing rests behind =>
          rw [rests, ih behind out]
          rfl

theorem tell_spends (member : Member) (order : Order) (gate : Gate) :
    ((member.tell order).worker.batchInFlight? gate).toList <+:
        (member.worker.batchInFlight? gate).toList ∧
      (member.tell order).worker.sharesInFlight gate <+: member.worker.sharesInFlight gate := by
  unfold Member.tell
  split
  · exact ⟨List.prefix_rfl, List.prefix_rfl⟩
  · exact member.worker.tell_spends order gate

/-- Behind a closed gate, all that a worker hashes and sends is what was in flight. -/
theorem Shuts.moves_spend (shuts : Shuts gate index counted holds) (closed : holds crew)
    (found : crew.members[index]? = some member) (events : List CrewEvent) :
    let rest := (moves index crew events).filter fun move => counted move.member
    rest.filterMap Move.batch? <+: (member.worker.batchInFlight? gate).toList ∧
      rest.flatMap Move.shares <+: member.worker.sharesInFlight gate := by
  induction events generalizing crew member with
  | nil => exact ⟨List.nil_prefix, List.nil_prefix⟩
  | cons event events ih =>
      cases isCounted : counted member with
      | false =>
          rw [shuts.not_counted found isCounted]
          exact ⟨List.nil_prefix, List.nil_prefix⟩
      | true =>
          simp only [moves, List.filter_append, List.filterMap_append, List.flatMap_append]
          cases act_befalls found event with
          | step moves behind =>
              have later := ih (shuts.act crew event closed) behind
              have spends := Worker.step_spends (shuts.barred crew member closed found isCounted)
              have one (move : Move) : [move].filterMap Move.batch? = move.batch?.toList := by
                cases now : move.batch? <;> simp [now]
              rw [moves]
              simp only [Option.toList_some, List.filter_cons, isCounted, if_true,
                List.filter_nil, List.flatMap_singleton, one]
              exact ⟨((List.prefix_append_right_inj _).mpr later.1).trans spends.batches,
                ((List.prefix_append_right_inj _).mpr later.2).trans spends.shares⟩
          | told order rests behind =>
              have later := ih (shuts.act crew event closed) behind
              have spends := tell_spends member order gate
              rw [rests]
              exact ⟨later.1.trans spends.1, later.2.trans spends.2⟩
          | nothing rests behind =>
              have later := ih (shuts.act crew event closed) behind
              rw [rests]
              exact later

/-! ## The gates -/

theorem running_act (crew : Crew) (event : CrewEvent) (stopped : crew.running = false) :
    (crew.act event).running = false := by
  cases event with
  | call call =>
      unfold act
      cases crew.round <;> exact stopped
  | deliver =>
      simp only [act]
      split
      · exact stopped
      · split <;> exact stopped
  | step index => exact stopped
  | stop => rfl

/-- The flag is cleared once for all. -/
theorem flag_shuts (index : Nat) :
    Shuts .flag index (fun _ => true) fun crew => crew.running = false where
  act := running_act
  barred := fun _ _ stopped _ _ => stopped
  tell := fun _ _ _ => rfl
  step := fun _ _ _ _ => rfl

theorem orders_act (crew : Crew) (event : CrewEvent) :
    crew.desk.orders <+: (crew.act event).desk.orders := by
  cases event with
  | call call =>
      unfold act
      cases crew.round with
      | none => exact List.prefix_append _ _
      | some handed => exact List.prefix_rfl
  | deliver =>
      simp only [act]
      split
      · exact List.prefix_rfl
      · split <;> exact List.prefix_rfl
  | step index => exact List.prefix_rfl
  | stop => exact List.prefix_rfl

theorem dropLast_prefix_due (crew : Crew) (index : Nat) :
    crew.desk.orders.dropLast <+: crew.due index := by
  unfold due
  split
  · exact List.dropLast_prefix _
  · split
    · exact List.dropLast_prefix _
    · exact List.prefix_rfl

end Crew

/-- Behind an order that moves the epoch, a worker that has not followed it is held at the gate.  If
the order is the last, the epoch is one more than that of the work; if others came behind it, it is
in the inbox. -/
theorem Member.Sound.barred {member : Member} {orders due first : List Order} {mover : Order}
    {dispatcher : Dispatcher} {start : UInt64} (sound : member.Sound orders due)
    (ordered : dispatcher.Ordered start orders) (sent : orders.dropLast <+: due)
    (given : first ++ [mover] <+: orders) (moves : mover.movesEpoch = true)
    (old : member.followed <+: first) (running : Bool) :
    member.worker.Barred .epoch running dispatcher.epoch := by
  intro search batches hashed stage current empty
  have alive : member.worker.hasExited = false := by simp only [Worker.hasExited, stage]
  have all : member.followed = due := by
    have told := sound.told alive
    simpa only [Member.told, Worker.outstanding, Worker.inHand?, stage, empty, Option.toList_none,
      List.append_nil] using told
  have last : member.followed.getLast? = some (.assign search.work search.epoch) :=
    (sound.heeds alive).busy _ _
      (by simp only [Worker.task?, Worker.search?, stage, Option.map_some])
  -- All orders but the last have been followed, and no more than the first.
  have lengths := sent.length_le
  rw [List.length_dropLast, ← all] at lengths
  have atMost := old.length_le
  have atLeast := given.length_le
  rw [List.length_append, List.length_singleton] at atLeast
  obtain rfl : member.followed = first := old.eq_of_length (by omega)
  obtain rfl : member.followed ++ [mover] = orders :=
    given.eq_of_length (by rw [List.length_append, List.length_singleton]; omega)
  have issued : search.epoch = Order.epochBehind start member.followed := by
    obtain ⟨earlier, followed⟩ := List.getLast?_eq_some_iff.mp last
    rw [followed]
    exact ordered.numbered earlier search.work search.epoch [mover] (by rw [followed]; simp)
  have now := ordered.epoch
  rw [Order.epochBehind_concat, if_pos moves, ← issued, current] at now
  exact absurd now (by simp)

namespace Crew

variable {crew : Crew} {index : Nat} {member : Member} {start : UInt64}

/-- An order that moves the epoch shuts it to all workers that have not followed it. -/
theorem epoch_shuts (start : UInt64) (index : Nat) (first : List Order) {mover : Order}
    (moves : mover.movesEpoch = true) :
    Shuts .epoch index (fun member => decide (member.followed <+: first)) fun crew =>
      crew.Sound start ∧ first ++ [mover] <+: crew.desk.orders where
  act := fun crew event holds => ⟨holds.1.act event, holds.2.trans (crew.orders_act event)⟩
  barred := fun crew member holds found old =>
    (holds.1.members index member found).barred holds.1.ordered (crew.dropLast_prefix_due index)
      holds.2 moves (of_decide_eq_true old) crew.running
  tell := fun member order old => by
    have same : (member.tell order).followed = member.followed := by
      unfold Member.tell
      split <;> rfl
    rwa [same] at old
  step := fun member running epoch old => by
    have grown : member.followed <+: (member.step running epoch).followed :=
      List.prefix_append _ _
    exact decide_eq_true (grown.trans (of_decide_eq_true old))

/-! ## The way to a batch -/

/-- What a worker at its inbox or at a batch has seen in its latest steps. -/
structure Approached (moves : List Move) (worker : Worker) : Prop where
  inbox : ∀ search batches hashed, worker.stage = .searching search batches hashed .inbox →
    ∃ earlier look, moves = earlier ++ [look] ∧
      look.member.worker.stage = .searching search batches hashed .epoch ∧
      look.epoch = search.epoch
  hashing : ∀ search batches hashed, worker.stage = .searching search batches hashed .hashing →
    ∃ earlier look ask, moves = earlier ++ [look, ask] ∧
      look.member.worker.stage = .searching search batches hashed .epoch ∧
      look.epoch = search.epoch ∧
      ask.member.worker.stage = .searching search batches hashed .inbox ∧
      ask.member.worker.inbox.orders = []

theorem Approached.step {before : List Move} {move : Move}
    (approached : Approached before move.member.worker) :
    Approached (before ++ [move])
      (move.member.step move.running move.epoch).worker := by
  have way {search : Search} {batches hashed : Nat} {point : BatchPoint}
      (stage : (move.member.step move.running move.epoch).worker.stage =
        .searching search batches hashed point)
      (late : point = .inbox ∨ point = .hashing) :
      Worker.Approaches move.epoch move.member.worker
        (move.member.step move.running move.epoch).worker := by
    refine Worker.step_approaches ?_
    rcases late with rfl | rfl
    · exact (congrArg WorkerStage.isUnderWay stage).trans rfl
    · exact (congrArg WorkerStage.isUnderWay stage).trans rfl
  constructor
  · intro search batches hashed stage
    cases way stage (.inl rfl) with
    | running before behind => exact absurd (stage.symm.trans behind) (by simp)
    | epoch looked current behind =>
        have same := stage.symm.trans behind
        simp only [WorkerStage.searching.injEq] at same
        obtain ⟨rfl, rfl, rfl, -⟩ := same
        exact ⟨before, move, rfl, looked, current⟩
    | inbox before empty behind => exact absurd (stage.symm.trans behind) (by simp)
  · intro search batches hashed stage
    cases way stage (.inr rfl) with
    | running before behind => exact absurd (stage.symm.trans behind) (by simp)
    | epoch looked current behind => exact absurd (stage.symm.trans behind) (by simp)
    | inbox asked empty behind =>
        have same := stage.symm.trans behind
        simp only [WorkerStage.searching.injEq] at same
        obtain ⟨rfl, rfl, rfl, -⟩ := same
        obtain ⟨earlier, look, rfl, looked, current⟩ := approached.inbox _ _ _ asked
        refine ⟨earlier, look, move, ?_, looked, current, asked, empty⟩
        rw [List.append_assoc]
        rfl

/-- Nobody joins or leaves. -/
theorem length_act (crew : Crew) (event : CrewEvent) :
    (crew.act event).members.length = crew.members.length := by
  cases event with
  | call call =>
      unfold act
      cases crew.round <;> rfl
  | deliver =>
      simp only [act]
      split
      · rfl
      · split
        · exact List.length_modify _ _ _
        · rfl
  | step index => exact List.length_modify _ _ _
  | stop => rfl

/-- Every step on the way to a batch has been made behind the one before it. -/
theorem moves_approached (epoch : UInt64) (settings : List WorkerSettings)
    (events : List CrewEvent) (found : (run epoch settings events).members[index]? = some member) :
    Approached (moves index (Crew.start epoch settings) events) member.worker := by
  induction events using List.reverseRecOn generalizing member with
  | nil =>
      simp only [run, List.foldl_nil, Crew.start, List.getElem?_map,
        Option.map_eq_some_iff] at found
      obtain ⟨owner, -, rfl⟩ := found
      constructor <;>
        exact fun search batches hashed stage => absurd stage (by simp [Member.start, Worker.start])
  | append_singleton events event ih =>
      rw [run_concat] at found
      obtain ⟨inside, -⟩ := List.getElem?_eq_some_iff.mp found
      rw [length_act] at inside
      have present := List.getElem?_eq_getElem inside
      have approached := ih present
      rw [moves_concat]
      change Approached (_ ++ ((run epoch settings events).move? index event).toList) _
      cases act_befalls present event with
      | step moves behind =>
          obtain rfl := Option.some.inj (behind.symm.trans found)
          rw [moves]
          exact approached.step
      | told order rests behind =>
          obtain rfl := Option.some.inj (behind.symm.trans found)
          rw [rests, Option.toList_none, List.append_nil]
          unfold Member.tell
          split
          · exact approached
          · exact ⟨approached.inbox, approached.hashing⟩
      | nothing rests behind =>
          obtain rfl := Option.some.inj (behind.symm.trans found)
          rw [rests, Option.toList_none, List.append_nil]
          exact approached

/-- A worker hashes a batch only if the epoch was that of the work when it looked directly before,
and takes up work only under the epoch of the assignment.  What it hashes and sends is for the work
of the last order that it followed.  When a call supersedes all work issued so
far, a worker that has followed no later order hashes at most the batch in flight, and sends shares
of no other; when the flag is cleared, the same holds of all that a worker does from then on.  A
batch is never longer than what the kernel takes at once. -/
theorem superseded_stops_within_batch (epoch : UInt64) (settings : List WorkerSettings)
    (events : List CrewEvent)
    (found : (run epoch settings events).members[index]? = some member) :
    let crew := run epoch settings events
    (∀ search batches hashed, member.worker.stage = .searching search batches hashed .hashing →
      ∃ earlier look ask,
        moves index (Crew.start epoch settings) events = earlier ++ [look, ask] ∧
          look.member.worker.stage = .searching search batches hashed .epoch ∧
          look.epoch = search.epoch ∧
          ask.member.worker.stage = .searching search batches hashed .inbox ∧
          ask.member.worker.inbox.orders = []) ∧
      (∀ work workEpoch,
        (member.step crew.running crew.desk.dispatcher.epoch).worker.task? =
            some (work, workEpoch) →
          member.worker.inHand? = none ∧ member.worker.task? = some (work, workEpoch) ∨
            member.worker.inHand? = some (.assign work workEpoch) ∧
              workEpoch = crew.desk.dispatcher.epoch) ∧
      (∀ work workEpoch, member.worker.task? = some (work, workEpoch) →
        member.followed.getLast? = some (.assign work workEpoch) ∧
          Move.IsFor work ⟨member, crew.running, crew.desk.dispatcher.epoch⟩) ∧
      (member.worker.task? = none →
        Move.batch? ⟨member, crew.running, crew.desk.dispatcher.epoch⟩ = none ∧
          Move.shares ⟨member, crew.running, crew.desk.dispatcher.epoch⟩ = []) ∧
      (∀ call later, crew.round = none → crew.desk.dispatcher.supersedes call = true →
        let superseded := crew.act (.call call)
        let old := (moves index superseded later).filter fun move =>
          move.member.followed <+: crew.desk.orders
        superseded.desk.dispatcher.epoch = crew.desk.dispatcher.epoch + 1 ∧
          old.filterMap Move.batch? <+: (member.worker.batchInFlight? .epoch).toList ∧
          old.flatMap Move.shares <+: member.worker.sharesInFlight .epoch) ∧
      (∀ later,
        let rest := moves index (crew.act .stop) later
        rest.filterMap Move.batch? <+: (member.worker.batchInFlight? .flag).toList ∧
          rest.flatMap Move.shares <+: member.worker.sharesInFlight .flag) ∧
      (∀ gate batch, member.worker.batchInFlight? gate = some batch →
        batch.length ≤ member.worker.settings.hasher.level.batchSize) := by
  have approached := moves_approached epoch settings events found
  have sound := run_sound epoch settings events
  intro crew
  change crew.members[index]? = some member at found
  change crew.Sound epoch at sound
  have kept := sound.members index member found
  refine ⟨approached.hashing, fun work workEpoch => kept.task_step,
    fun work workEpoch => kept.isFor crew.running crew.desk.dispatcher.epoch,
    kept.idles crew.running crew.desk.dispatcher.epoch,
    fun call later free supersedes => ?_, fun later => ?_,
    fun gate batch => Worker.length_of_batchInFlight?⟩
  · obtain ⟨mover, given, moves, moved⟩ := Dispatcher.serve_of_supersedes supersedes
    have served : (crew.act (.call call)).desk = crew.desk.serve call := by
      simp only [act, free]
    have ordered : (crew.act (.call call)).desk.orders = crew.desk.orders ++ [mover] := by
      rw [served, Desk.serve, given, Option.toList_some]
    have same : (crew.act (.call call)).members[index]? = some member := by
      simpa only [act, free] using found
    refine ⟨?_, ?_⟩
    · rw [served]
      exact moved
    · exact (epoch_shuts epoch index crew.desk.orders moves).moves_spend
        ⟨sound.act _, ordered ▸ List.prefix_rfl⟩ same later
  · have stopped : (crew.act .stop).running = false := rfl
    have spends := (flag_shuts index).moves_spend stopped found later
    rwa [List.filter_true] at spends

/-- A job is taken up, and the worker comes to its first batch. -/
def sampleBefore : List CrewEvent :=
  [.call (.subscribe [9] 2), .call (.dispatch (sampleJob "7" false)), .deliver, .deliver] ++
    List.replicate 7 (.step 0)

set_option maxRecDepth 100000 in
/-- A clean job does not stop the batch in flight, and no other is hashed for the first job. -/
theorem superseded_stops_within_batch_sample :
    ∃ member, (run 0 [sampleSettings] sampleBefore).members[0]? = some member ∧
      let crew := run 0 [sampleSettings] sampleBefore
      let superseded := crew.act (.call (.dispatch (sampleJob "8" true)))
      let old := (moves 0 superseded [.step 0, .deliver, .step 0, .step 0, .step 0]).filter
        fun move => move.member.followed <+: crew.desk.orders
      old.filterMap Move.batch? ≠ [] ∧
        old.filterMap Move.batch? <+: (member.worker.batchInFlight? .epoch).toList := by
  obtain ⟨member, found⟩ :
      ∃ member, (run 0 [sampleSettings] sampleBefore).members[0]? = some member :=
    ⟨_, List.getElem?_eq_getElem (by decide +kernel)⟩
  refine ⟨member, found, by decide +kernel, ?_⟩
  obtain ⟨-, -, -, -, supersedes, -⟩ :=
    superseded_stops_within_batch 0 [sampleSettings] sampleBefore found
  exact (supersedes (.dispatch (sampleJob "8" true)) _ (by decide +kernel)
    (by decide +kernel)).2.1

end Crew

end StratumMiner
