import Mathlib
import StratumMiner.Proofs.Mining.CrewRun

/-!
# The history of a dispatcher

What a dispatcher holds and what it has ordered last can be told from the calls that it has served:
the difficulty is the latest that was set, the session that of the latest subscription which was not
refused, the job the latest that came, and the last two of these count only since the last call to
idle.  If there are both a session and a job, the last order assigns the job, made into work when
the order was given.

The epochs of assignments rise with each order that moves the epoch.  The dispatcher does not fail
before the counter of 64 bits is at its end.
-/

namespace StratumMiner

namespace DispatcherCall

/-- The job that comes. -/
def job? : DispatcherCall → Option Job
  | .dispatch job => some job
  | _ => none

/-- The difficulty that is set. -/
def difficulty? : DispatcherCall → Option PoolDifficulty
  | .setDifficulty difficulty => some difficulty
  | _ => none

/-- The first extranonce of a subscription, if the second has one to eight bytes. -/
def extranonce1? : DispatcherCall → Option Bytes
  | .subscribe extranonce1 size => if 1 ≤ size ∧ size ≤ 8 then some extranonce1 else none
  | _ => none

/-- The calls since the last one to idle. -/
def sinceIdle (calls : List DispatcherCall) : List DispatcherCall :=
  calls.rtakeWhile fun call => call ≠ .idle

/-- What the latest call says of those that say something. -/
def latest {α : Type} (read : DispatcherCall → Option α) (calls : List DispatcherCall) : Option α :=
  (calls.filterMap read).getLast?

variable {α : Type} {read : DispatcherCall → Option α} {calls : List DispatcherCall}
  {call : DispatcherCall}

theorem latest_concat : latest read (calls ++ [call]) = (read call).or (latest read calls) := by
  cases tells : read call <;> simp [latest, tells]

@[simp] theorem sinceIdle_idle (calls : List DispatcherCall) :
    sinceIdle (calls ++ [.idle]) = [] := by
  rw [sinceIdle, List.rtakeWhile_concat_neg _ _ _ (by simp)]

theorem sinceIdle_concat (busy : call ≠ .idle) :
    sinceIdle (calls ++ [call]) = sinceIdle calls ++ [call] := by
  rw [sinceIdle, List.rtakeWhile_concat_pos _ _ _ (by simpa using busy), sinceIdle]

end DispatcherCall

namespace Order

/-- The epoch that an assignment bears. -/
def epoch? : Order → Option UInt64
  | .assign _ epoch => some epoch
  | _ => none

variable {start : UInt64} {orders : List Order}

/-- Before the counter comes round, the epoch is the number of moves on top of the first. -/
theorem toNat_epochBehind (room : start.toNat + orders.countP movesEpoch < 2 ^ 64) :
    (epochBehind start orders).toNat = start.toNat + orders.countP movesEpoch := by
  rw [epochBehind, UInt64.toNat_add, UInt64.toNat_ofNat', Nat.add_mod_mod, Nat.mod_eq_of_lt room]

theorem epoch?_eq_some {order : Order} {epoch : UInt64} (bears : order.epoch? = some epoch) :
    ∃ work, order = .assign work epoch := by
  cases order with
  | assign work workEpoch => exact ⟨work, congrArg _ (Option.some.inj bears)⟩
  | idle => exact absurd bears (by simp [epoch?])
  | shutdown => exact absurd bears (by simp [epoch?])

theorem Numbered.le_epochBehind (numbered : Numbered start orders)
    (room : start.toNat + orders.countP movesEpoch < 2 ^ 64) {epoch : UInt64}
    (member : epoch ∈ orders.filterMap epoch?) : epoch ≤ epochBehind start orders := by
  obtain ⟨order, inOrders, bears⟩ := List.mem_filterMap.mp member
  obtain ⟨work, rfl⟩ := epoch?_eq_some bears
  obtain ⟨earlier, later, split⟩ := List.append_of_mem inOrders
  have fewer : (earlier ++ [assign work epoch]).countP movesEpoch ≤ orders.countP movesEpoch := by
    rw [split, List.append_cons earlier _ later]
    exact (List.sublist_append_left _ later).countP_le
  rw [UInt64.le_iff_toNat_le]
  calc epoch.toNat
      = (epochBehind start (earlier ++ [assign work epoch])).toNat :=
        congrArg _ (numbered earlier work epoch later split)
    _ = start.toNat + (earlier ++ [assign work epoch]).countP movesEpoch :=
        toNat_epochBehind (by omega)
    _ ≤ start.toNat + orders.countP movesEpoch := Nat.add_le_add_left fewer _
    _ = (epochBehind start orders).toNat := (toNat_epochBehind room).symm

/-- Before the counter comes round, the epochs of assignments never fall. -/
theorem Numbered.pairwise_epoch? (numbered : Numbered start orders)
    (room : start.toNat + orders.countP movesEpoch < 2 ^ 64) :
    (orders.filterMap epoch?).Pairwise (· ≤ ·) := by
  induction orders using List.reverseRecOn with
  | nil => exact List.Pairwise.nil
  | append_singleton orders order ih =>
      have fewer : orders.countP movesEpoch ≤ (orders ++ [order]).countP movesEpoch :=
        (List.sublist_append_left orders [order]).countP_le
      have before : Numbered start orders := fun earlier work epoch later split =>
        numbered earlier work epoch (later ++ [order]) (by rw [split]; simp)
      rw [List.filterMap_append, List.pairwise_append]
      refine ⟨ih before (by omega), ?_, fun first firstIn last lastIn => ?_⟩
      · cases order with
        | assign work epoch => exact List.pairwise_singleton _ _
        | idle => exact List.Pairwise.nil
        | shutdown => exact List.Pairwise.nil
      · obtain ⟨final, finalIn, bears⟩ := List.mem_filterMap.mp lastIn
        obtain rfl := List.mem_singleton.mp finalIn
        obtain ⟨work, rfl⟩ := epoch?_eq_some bears
        rw [numbered orders work last [] rfl]
        refine numbered.le_epochBehind room ?_
        rw [List.filterMap_append]
        exact List.mem_append_left _ firstIn

end Order

/-- Whether a job is another one, or the same as a clean one. -/
def Job.Raises (job raised : Job) : Prop :=
  raised = job ∨ raised = { job with clean := true }

/-- The work is the job under the extranonces of a session, with the second extranonce before the
next one. -/
structure Work.Serves (session : Session) (job : Job) (work : Work) : Prop where
  job : work.job = job
  source : ∃ extranonce2, work.source = .computed session.extranonce1 extranonce2 ∧
    extranonce2.next = session.next

/-! ## What one call changes -/

theorem Dispatcher.Issued.serves {before after : Dispatcher} {job : Job} {work : Work}
    {epoch : UInt64} (issued : Issued before job after work epoch) {session : Session}
    (installed : after.session = some session) : work.Serves session job := by
  obtain ⟨former, -, kept, source⟩ := issued.source
  obtain rfl := Option.some.inj (kept.symm.trans installed)
  exact ⟨issued.carries, former.next, source, rfl⟩

namespace Dispatcher.Served

variable {before after : Dispatcher} {call : DispatcherCall} {order : Option Order}

theorem difficulty (served : Served before call after order) :
    after.difficulty = call.difficulty?.or before.difficulty := by
  cases served with
  | refused | subscribed | eased | held | idled => rfl
  | resumed usable atHand issued => exact issued.difficulty
  | dispatched issued => exact issued.difficulty

theorem session (served : Served before call after order) (busy : call ≠ .idle) :
    after.session.map Session.extranonce1 =
      call.extranonce1?.or (before.session.map Session.extranonce1) := by
  cases served with
  | refused unusable => rw [DispatcherCall.extranonce1?, if_neg unusable, Option.none_or]
  | subscribed usable free => rw [DispatcherCall.extranonce1?, if_pos usable]; rfl
  | resumed usable atHand issued =>
      obtain ⟨session, installed, kept, -⟩ := issued.source
      rw [DispatcherCall.extranonce1?, if_pos usable, kept, ← Option.some.inj installed]
      rfl
  | eased | held => rfl
  | dispatched issued =>
      obtain ⟨session, installed, kept, -⟩ := issued.source
      rw [kept, installed]
      rfl
  | idled => exact absurd rfl busy

theorem current (served : Served before call after order) (busy : call ≠ .idle)
    {latest : Option Job} (atHand : Option.Rel Job.Raises latest before.current) :
    Option.Rel Job.Raises (call.job?.or latest) after.current := by
  cases served with
  | refused | subscribed | eased => exact atHand
  | @resumed _ _ _ job _ _ _ usable held issued =>
      rw [issued.current]
      rw [held] at atHand
      cases atHand with
      | some raised =>
          refine .some (.inr ?_)
          rcases raised with rfl | rfl <;> rfl
  | held => exact .some (.inl rfl)
  | dispatched issued =>
      rw [issued.current]
      exact .some (.inl rfl)
  | idled => exact absurd rfl busy

/-- Without a session no order is given. -/
theorem unassigned (served : Served before call after order) (busy : call ≠ .idle)
    (none : after.session = none) : before.session = Option.none ∧ order = Option.none := by
  cases served with
  | refused | eased => exact ⟨none, rfl⟩
  | subscribed => exact absurd none (by simp)
  | held unsubscribed => exact ⟨unsubscribed, rfl⟩
  | resumed usable atHand issued =>
      obtain ⟨session, -, kept, -⟩ := issued.source
      exact absurd (none.symm.trans kept) (by simp)
  | dispatched issued =>
      obtain ⟨session, -, kept, -⟩ := issued.source
      exact absurd (none.symm.trans kept) (by simp)
  | idled => exact absurd rfl busy

/-- With a session and a job behind it, a call has issued the job, or it has given no order and
left the session, the job and the epoch alone. -/
theorem issued (served : Served before call after order) {session : Session} {job : Job}
    (installed : after.session = some session) (atHand : after.current = some job) :
    (∃ work, order = some (.assign work after.epoch) ∧ work.Serves session job ∧
        work.target = before.shareTarget job) ∨
      order = none ∧ before.session = some session ∧ before.current = some job ∧
        after.epoch = before.epoch := by
  cases served with
  | refused | eased => exact .inr ⟨rfl, installed, atHand, rfl⟩
  | subscribed usable free => exact absurd (atHand.symm.trans free) (by simp)
  | held unsubscribed => exact absurd (installed.symm.trans unsubscribed) (by simp)
  | @resumed _ _ _ _ _ work _ usable held issued =>
      obtain rfl := Option.some.inj (atHand.symm.trans issued.current)
      exact .inl ⟨work, by rw [issued.epoch], issued.serves installed, issued.target⟩
  | @dispatched _ _ work _ issued =>
      obtain rfl := Option.some.inj (atHand.symm.trans issued.current)
      exact .inl ⟨work, by rw [issued.epoch], issued.serves installed, issued.target⟩
  | idled => exact absurd installed (by simp)

end Dispatcher.Served

namespace Desk

open DispatcherCall (latest)

variable {start : UInt64} {calls : List DispatcherCall}

theorem dispatcher_concat (start : UInt64) (calls : List DispatcherCall) (call : DispatcherCall) :
    (run start (calls ++ [call])).dispatcher = ((run start calls).dispatcher.serve call).1 := by
  rw [run_concat]
  rfl

theorem orders_concat (start : UInt64) (calls : List DispatcherCall) (call : DispatcherCall) :
    (run start (calls ++ [call])).orders =
      (run start calls).orders ++ ((run start calls).dispatcher.serve call).2.toList := by
  rw [run_concat]
  rfl

/-- The difficulty is the latest that was set. -/
theorem run_difficulty (start : UInt64) (calls : List DispatcherCall) :
    (run start calls).dispatcher.difficulty = latest DispatcherCall.difficulty? calls := by
  induction calls using List.reverseRecOn with
  | nil => rfl
  | append_singleton calls call ih =>
      rw [dispatcher_concat, DispatcherCall.latest_concat, ← ih]
      exact (Dispatcher.serve_served _ call).difficulty

/-- The session is that of the latest subscription since the last call to idle. -/
theorem run_session (start : UInt64) (calls : List DispatcherCall) :
    (run start calls).dispatcher.session.map Session.extranonce1 =
      latest DispatcherCall.extranonce1? (DispatcherCall.sinceIdle calls) := by
  induction calls using List.reverseRecOn with
  | nil => rfl
  | append_singleton calls call ih =>
      rw [dispatcher_concat]
      by_cases idle : call = .idle
      · rw [idle, DispatcherCall.sinceIdle_idle]
        rfl
      · rw [DispatcherCall.sinceIdle_concat idle, DispatcherCall.latest_concat, ← ih]
        exact (Dispatcher.serve_served _ call).session idle

/-- The job at hand is the latest since the last call to idle. -/
theorem run_current (start : UInt64) (calls : List DispatcherCall) :
    Option.Rel Job.Raises (latest DispatcherCall.job? (DispatcherCall.sinceIdle calls))
      (run start calls).dispatcher.current := by
  induction calls using List.reverseRecOn with
  | nil => exact .none
  | append_singleton calls call ih =>
      rw [dispatcher_concat]
      by_cases idle : call = .idle
      · rw [idle, DispatcherCall.sinceIdle_idle]
        exact .none
      · rw [DispatcherCall.sinceIdle_concat idle, DispatcherCall.latest_concat]
        exact (Dispatcher.serve_served _ call).current idle ih

/-- Without a session there has been no assignment since the last order to idle. -/
theorem run_unassigned (start : UInt64) (calls : List DispatcherCall)
    (none : (run start calls).dispatcher.session = none) :
    Order.sinceIdle (run start calls).orders = [] := by
  induction calls using List.reverseRecOn with
  | nil => rfl
  | append_singleton calls call ih =>
      rw [dispatcher_concat] at none
      rw [orders_concat]
      by_cases idle : call = .idle
      · rw [idle]
        exact Order.sinceIdle_idle _
      · obtain ⟨before, order⟩ := (Dispatcher.serve_served _ call).unassigned idle none
        rw [order, Option.toList_none, List.append_nil]
        exact ih before

/-- One of the calls gave the last of all orders, and the order assigns this work under the epoch of
the dispatcher. -/
structure LastIssued (start : UInt64) (calls earlier : List DispatcherCall) (call : DispatcherCall)
    (work : Work) : Prop where
  served : earlier ++ [call] <+: calls
  order : ((run start earlier).dispatcher.serve call).2 =
    some (.assign work (run start calls).dispatcher.epoch)
  last : (run start calls).orders =
    (run start earlier).orders ++ [.assign work (run start calls).dispatcher.epoch]

/-- With a session and a job, the last order assigns the job as work of the session, against the
target of the difficulty at that time. -/
theorem run_issued (start : UInt64) (calls : List DispatcherCall) {session : Session} {job : Job}
    (installed : (run start calls).dispatcher.session = some session)
    (atHand : (run start calls).dispatcher.current = some job) :
    ∃ earlier call work, LastIssued start calls earlier call work ∧ work.Serves session job ∧
      work.target = (run start earlier).dispatcher.shareTarget job := by
  induction calls using List.reverseRecOn with
  | nil => exact absurd installed (by simp [run, opened, Dispatcher.initial])
  | append_singleton calls call ih =>
      rw [dispatcher_concat] at installed atHand
      rcases (Dispatcher.serve_served _ call).issued installed atHand with
        ⟨work, order, serves, target⟩ | ⟨order, before, held, epoch⟩
      · refine ⟨calls, call, work, ⟨List.prefix_rfl, ?_, ?_⟩, serves, target⟩
        · rw [dispatcher_concat]
          exact order
        · rw [orders_concat, order, dispatcher_concat]
          rfl
      · obtain ⟨earlier, issuing, work, issued, serves, target⟩ := ih before held
        refine ⟨earlier, issuing, work, ⟨?_, ?_, ?_⟩, serves, target⟩
        · exact issued.served.trans (List.prefix_append _ _)
        · rw [dispatcher_concat, epoch]
          exact issued.order
        · rw [orders_concat, order, dispatcher_concat, epoch, Option.toList_none, List.append_nil]
          exact issued.last

theorem run_shareTarget (start : UInt64) (calls : List DispatcherCall) (job : Job) :
    (run start calls).dispatcher.shareTarget job =
      ((latest DispatcherCall.difficulty? calls).map PoolDifficulty.toTarget).getD
        (Target.decode job.nbits) := by
  rw [Dispatcher.shareTarget, run_difficulty]
  cases latest DispatcherCall.difficulty? calls <;> rfl

end Desk

/-! ## Handing the orders round -/

namespace Crew

/-- The desk of a crew is what its calls make of it. -/
theorem run_desk (epoch : UInt64) (settings : List WorkerSettings) (events : List CrewEvent) :
    (run epoch settings events).desk = Desk.run epoch (run epoch settings events).desk.calls := by
  induction events using List.reverseRecOn with
  | nil => rfl
  | append_singleton events event ih =>
      rw [run_concat]
      generalize run epoch settings events = crew at ih
      cases event with
      | call call =>
          unfold act
          cases crew.round with
          | some handed => exact ih
          | none =>
              change crew.desk.serve call = Desk.run epoch (crew.desk.calls ++ [call])
              rw [Desk.run_concat, ← ih]
      | deliver =>
          simp only [act]
          split
          · exact ih
          · split <;> exact ih
      | step index => exact ih
      | stop => exact ih

/-- No worker has exited. -/
def Live (crew : Crew) : Prop :=
  ∀ member ∈ crew.members, member.worker.hasExited = false

theorem Live.deliver {crew : Crew} (live : crew.Live) : (crew.act .deliver).Live := by
  simp only [act]
  split
  · exact live
  · next order next round =>
      split
      · intro member present
        obtain ⟨index, found⟩ := List.getElem?_of_mem present
        simp only [List.getElem?_modify, Option.map_eq_map, Option.map_eq_some_iff] at found
        obtain ⟨before, found, rfl⟩ := found
        have alive := live before (List.mem_of_getElem? found)
        split
        · exact (Member.hasExited_tell order).trans alive
        · exact alive
      · exact live

/-- The order in hand can be handed to all workers that are left. -/
theorem exists_deliveries (crew : Crew) :
    ∃ events : List CrewEvent, (events.foldl act crew).round = none ∧
      (events.foldl act crew).desk = crew.desk ∧ (crew.Live → (events.foldl act crew).Live) := by
  cases round : crew.round with
  | none => exact ⟨[], round, rfl, id⟩
  | some handed =>
      obtain ⟨order, next⟩ := handed
      induction left : crew.members.length - next generalizing crew next with
      | zero =>
          have done : crew.act .deliver = { crew with round := none } := by
            simp only [act, round, if_neg (show ¬next < crew.members.length by omega)]
          refine ⟨[.deliver], ?_, ?_, Live.deliver⟩ <;>
            rw [List.foldl_cons, List.foldl_nil, done]
      | succ left ih =>
          have delivered : crew.act .deliver =
              { crew with
                members := crew.members.modify next (Member.tell order)
                round := some (order, next + 1) } := by
            simp only [act, round, if_pos (show next < crew.members.length by omega)]
          obtain ⟨events, atRest, desk, live⟩ := ih (crew.act .deliver) (next + 1)
            (by rw [delivered]) (by rw [delivered, List.length_modify]; omega)
          exact ⟨.deliver :: events, atRest, desk.trans (by rw [delivered]),
            fun alive => live alive.deliver⟩

/-- Every list of calls can be served, with workers that stay alive. -/
theorem exists_run (epoch : UInt64) (settings : List WorkerSettings)
    (calls : List DispatcherCall) :
    ∃ events, (run epoch settings events).desk.calls = calls ∧
      (run epoch settings events).round = none ∧ (run epoch settings events).Live := by
  induction calls using List.reverseRecOn with
  | nil =>
      refine ⟨[], rfl, rfl, fun member present => ?_⟩
      obtain ⟨owner, -, rfl⟩ := List.mem_map.mp present
      rfl
  | append_singleton calls call ih =>
      obtain ⟨events, served, atRest, live⟩ := ih
      obtain ⟨deliveries, done, desk, stay⟩ :=
        exists_deliveries ((run epoch settings events).act (.call call))
      have split : run epoch settings (events ++ .call call :: deliveries) =
          deliveries.foldl act ((run epoch settings events).act (.call call)) := by
        rw [run, List.foldl_append]
        rfl
      refine ⟨events ++ .call call :: deliveries, ?_, ?_, ?_⟩ <;> rw [split]
      · rw [desk]
        simp only [act, atRest, Desk.serve, served]
      · exact done
      · refine stay ?_
        simp only [act, atRest]
        exact live

end Crew

namespace Desk

open DispatcherCall (latest)

/-- All workers are sent the same orders in the same order, and an assignment bears the first epoch
and one for each order so far that moved it, on a counter of 64 bits.  With fewer moves than the
counter has room for, the dispatcher does not fail and the epochs never fall.  If there are a
session and, since the last call to idle, a job, the last order assigns the latest such job under
the epoch of the dispatcher, with the first extranonce of the latest subscription that was not
refused, the second before the next one, and the target of the difficulty at the time of the order.
Without a session there has been no assignment since the last order to idle.  A subscription that is
refused gives no order and changes nothing. -/
theorem run_orders_latest_job (start : UInt64) (calls : List DispatcherCall) :
    let desk := run start calls
    let recent := DispatcherCall.sinceIdle calls
    (∀ settings,
        (∃ events, (Crew.run start settings events).desk.calls = calls ∧
          (Crew.run start settings events).round = none ∧
          (Crew.run start settings events).Live) ∧
        ∀ events, (Crew.run start settings events).desk.calls = calls →
          (Crew.run start settings events).round = none →
          ∀ member ∈ (Crew.run start settings events).members,
            member.worker.hasExited = false → member.told = desk.orders) ∧
      Order.Numbered start desk.orders ∧
      (∀ ended, run? start calls = some ended → ended = desk) ∧
      (start.toNat + desk.orders.countP Order.movesEpoch < 2 ^ 64 →
        run? start calls = some desk ∧
          (desk.orders.filterMap Order.epoch?).Pairwise (· ≤ ·)) ∧
      (∀ session job, desk.dispatcher.session = some session →
        latest DispatcherCall.job? recent = some job →
        latest DispatcherCall.extranonce1? recent = some session.extranonce1 ∧
          ∃ raised earlier call work, job.Raises raised ∧
            LastIssued start calls earlier call work ∧ work.Serves session raised ∧
            work.target = ((latest DispatcherCall.difficulty? earlier).map
              PoolDifficulty.toTarget).getD (Target.decode job.nbits)) ∧
      (desk.dispatcher.session = none → Order.sinceIdle desk.orders = []) ∧
      (∀ extranonce1 size,
        ((∃ fault, desk.dispatcher.subscribe extranonce1 size = .error fault) ↔
          ¬(1 ≤ size ∧ size ≤ 8)) ∧
        (¬(1 ≤ size ∧ size ≤ 8) →
          desk.dispatcher.serve (.subscribe extranonce1 size) = (desk.dispatcher, none))) := by
  have ordered := run_ordered start calls
  refine ⟨fun settings => ⟨Crew.exists_run start settings calls, ?_⟩, ordered.numbered,
    fun ended ran => run_of_run? ran,
    fun few => ⟨run?_eq_some few, ordered.numbered.pairwise_epoch? few⟩,
    fun session job installed came => ⟨?_, ?_⟩,
    run_unassigned start calls, fun extranonce1 size => ?_⟩
  · intro events served atRest member present alive
    have sound := Crew.run_sound start settings events
    obtain ⟨index, found⟩ := List.getElem?_of_mem present
    have told := (sound.members index member found).told alive
    simp only [Crew.due, atRest] at told
    rw [told, Crew.run_desk, served]
  · rw [← run_session, installed]
    rfl
  · have current := run_current start calls
    rw [came] at current
    cases atHand : (run start calls).dispatcher.current with
    | none =>
        rw [atHand] at current
        cases current
    | some raised =>
        rw [atHand] at current
        cases current with
        | some raises =>
            obtain ⟨earlier, call, work, issued, serves, target⟩ :=
              run_issued start calls installed atHand
            refine ⟨raised, earlier, call, work, raises, issued, serves, ?_⟩
            have nbits : raised.nbits = job.nbits := by
              rcases raises with rfl | rfl <;> rfl
            rw [target, run_shareTarget, nbits]
  · have refused := Dispatcher.subscribe_error_iff (run start calls).dispatcher extranonce1 size
    refine ⟨refused, fun unusable => ?_⟩
    obtain ⟨fault, error⟩ := refused.mpr unusable
    simp only [Dispatcher.serve, error]

/-- A job that comes before its session and is over with it, then a session that is refused, one
that is not, and two jobs of which the second is a clean one. -/
def sampleCalls : List DispatcherCall :=
  [.dispatch (Crew.sampleJob "5" false), .subscribe [9] 2, .idle, .subscribe [7] 9,
    .subscribe [8] 2, .dispatch (Crew.sampleJob "7" false), .dispatch (Crew.sampleJob "8" true)]

/-- The dispatcher does not fail, the epochs rise, and the last order assigns the last job. -/
theorem run_orders_latest_job_sample :
    run? 0 sampleCalls = some (run 0 sampleCalls) ∧
      (run 0 sampleCalls).orders.filterMap Order.epoch? = [1, 2, 3] ∧
      ((run 0 sampleCalls).orders.filterMap Order.epoch?).Pairwise (· ≤ ·) ∧
      ∃ work, (run 0 sampleCalls).orders.getLast? = some (.assign work 3) ∧
        work.job = Crew.sampleJob "8" true := by
  obtain ⟨-, -, -, below, last, -⟩ := run_orders_latest_job 0 sampleCalls
  obtain ⟨lasts, rising⟩ := below (by decide +kernel)
  refine ⟨lasts, by decide +kernel, rising, ?_⟩
  obtain ⟨session, installed⟩ : ∃ session, (run 0 sampleCalls).dispatcher.session = some session :=
    Option.isSome_iff_exists.mp (by decide +kernel)
  obtain ⟨-, raised, earlier, call, work, raises, issued, serves, -⟩ :=
    last session (Crew.sampleJob "8" true) installed (by decide +kernel)
  have epoch : (run 0 sampleCalls).dispatcher.epoch = 3 := by decide +kernel
  refine ⟨work, ?_, ?_⟩
  · rw [issued.last, List.getLast?_concat, epoch]
  · rcases raises with rfl | rfl <;> exact serves.job

end Desk

end StratumMiner
