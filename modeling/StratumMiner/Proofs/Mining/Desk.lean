import Mathlib
import StratumMiner.Mining.Dispatcher
import StratumMiner.Proofs.Window

/-!
# What a dispatcher has ordered

A desk is a dispatcher with its history: the calls that it has served and the orders that it has
given.  What a call comes to is said once, in `Dispatcher.Served`; everything else about desks
follows from it by induction over the calls.

The epoch and the jobs whose shares are wanted can be read off the orders alone.  The epoch is the
number of orders that have moved it on, on a counter of 64 bits, and an assignment bears the epoch
behind it.  The jobs wanted are those of the latest eight assignments since the epoch moved.
-/

namespace StratumMiner

/-- What a dispatcher can be asked to do. -/
inductive DispatcherCall where
  | subscribe (extranonce1 : Bytes) (size : Nat)
  | setDifficulty (difficulty : PoolDifficulty)
  | dispatch (job : Job)
  | idle
  deriving Repr, DecidableEq

namespace Dispatcher

/-- The dispatcher behind a call, and the order that goes out to all workers.  A subscription that
is refused changes nothing. -/
def serve (dispatcher : Dispatcher) : DispatcherCall → Dispatcher × Option Order
  | .subscribe extranonce1 size =>
      match dispatcher.subscribe extranonce1 size with
      | .ok next => next
      | .error _ => (dispatcher, none)
  | .setDifficulty difficulty => (dispatcher.setDifficulty difficulty, none)
  | .dispatch job => dispatcher.dispatch job
  | .idle => dispatcher.idle

/-- A job goes out as work of the session. -/
structure Issued (before : Dispatcher) (job : Job) (after : Dispatcher) (work : Work)
    (epoch : UInt64) : Prop where
  source : ∃ session, before.session = some session ∧
    after.session = some { session with next := session.next.next } ∧
    work.source = .computed session.extranonce1 session.next
  carries : work.job = job
  target : work.target = before.shareTarget job
  current : after.current = some job
  difficulty : after.difficulty = before.difficulty
  recent : after.recent = remember before.recent job
  moved : epoch = if job.clean then before.epoch + 1 else before.epoch
  epoch : after.epoch = epoch

/-- What a call comes to: the dispatcher behind it, and the order. -/
inductive Served (dispatcher : Dispatcher) : DispatcherCall → Dispatcher → Option Order → Prop where
  | refused {extranonce1 : Bytes} {size : Nat} (unusable : ¬(1 ≤ size ∧ size ≤ 8)) :
      Served dispatcher (.subscribe extranonce1 size) dispatcher none
  | subscribed {extranonce1 : Bytes} {size : Nat} {next : Extranonce2}
      (usable : 1 ≤ size ∧ size ≤ 8) (free : dispatcher.current = none) :
      Served dispatcher (.subscribe extranonce1 size)
        { dispatcher with session := some { extranonce1, next } } none
  | resumed {extranonce1 : Bytes} {size : Nat} {next : Extranonce2} {job : Job}
      {after : Dispatcher} {work : Work} {epoch : UInt64}
      (usable : 1 ≤ size ∧ size ≤ 8) (atHand : dispatcher.current = some job)
      (issued : Issued { dispatcher with session := some { extranonce1, next } }
        { job with clean := true } after work epoch) :
      Served dispatcher (.subscribe extranonce1 size) after (some (.assign work epoch))
  | eased {difficulty : PoolDifficulty} :
      Served dispatcher (.setDifficulty difficulty)
        { dispatcher with difficulty := some difficulty } none
  | held {job : Job} (unsubscribed : dispatcher.session = none) :
      Served dispatcher (.dispatch job) { dispatcher with current := some job } none
  | dispatched {job : Job} {after : Dispatcher} {work : Work} {epoch : UInt64}
      (issued : Issued dispatcher job after work epoch) :
      Served dispatcher (.dispatch job) after (some (.assign work epoch))
  | idled :
      Served dispatcher .idle
        { dispatcher with session := none, current := none, recent := [],
                          epoch := dispatcher.epoch + 1 } (some .idle)

theorem dispatch_of_session (dispatcher : Dispatcher) (job : Job) {session : Session}
    (installed : dispatcher.session = some session) :
    ∃ work epoch, (dispatcher.dispatch job).2 = some (.assign work epoch) ∧
      Issued dispatcher job (dispatcher.dispatch job).1 work epoch := by
  simp only [dispatch, installed]
  exact ⟨_, _, rfl, ⟨session, installed, rfl, rfl⟩, rfl, rfl, rfl, rfl, rfl, rfl, rfl⟩

theorem make_zero (size : Nat) :
    (∃ next, Extranonce2.make 0 size = .ok next) ∧ (1 ≤ size ∧ size ≤ 8) ∨
      (∃ fault, Extranonce2.make 0 size = .error fault) ∧ ¬(1 ≤ size ∧ size ≤ 8) := by
  unfold Extranonce2.make
  split
  · next usable =>
      have fits : 0 < Nat.pow 256 size := Nat.pow_pos (by decide)
      exact .inl ⟨⟨_, dif_pos fits⟩, usable⟩
  · next unusable => exact .inr ⟨⟨_, rfl⟩, unusable⟩

/-- A subscription is refused just when the second extranonce would have no bytes or more than
eight. -/
theorem subscribe_error_iff (dispatcher : Dispatcher) (extranonce1 : Bytes) (size : Nat) :
    (∃ fault, dispatcher.subscribe extranonce1 size = .error fault) ↔
      ¬(1 ≤ size ∧ size ≤ 8) := by
  rcases make_zero size with ⟨⟨next, made⟩, usable⟩ | ⟨⟨fault, refused⟩, unusable⟩
  · refine iff_of_false ?_ (not_not_intro usable)
    rintro ⟨fault, refused⟩
    simp only [subscribe, made] at refused
    split at refused <;> exact absurd refused (by simp)
  · refine iff_of_true ⟨fault, ?_⟩ unusable
    simp only [subscribe, refused]

theorem serve_served (dispatcher : Dispatcher) (call : DispatcherCall) :
    Served dispatcher call (dispatcher.serve call).1 (dispatcher.serve call).2 := by
  obtain ⟨session, difficulty, current, recent, epoch⟩ := dispatcher
  cases call with
  | subscribe extranonce1 size =>
      rcases make_zero size with ⟨⟨next, made⟩, usable⟩ | ⟨⟨fault, refused⟩, unusable⟩
      · simp only [serve, subscribe, made]
        cases current with
        | none => exact .subscribed usable rfl
        | some job =>
            obtain ⟨work, workEpoch, order, issued⟩ := dispatch_of_session
              ⟨some { extranonce1, next }, difficulty, some job, recent, epoch⟩
              { job with clean := true } rfl
            simp only [order]
            exact .resumed usable rfl issued
      · simp only [serve, subscribe, refused]
        exact .refused unusable
  | setDifficulty difficulty => exact .eased
  | dispatch job =>
      cases session with
      | none => exact .held rfl
      | some session =>
          obtain ⟨work, workEpoch, order, issued⟩ := dispatch_of_session
            ⟨some session, difficulty, current, recent, epoch⟩ job rfl
          simp only [serve, order]
          exact .dispatched issued
  | idle => exact .idled

end Dispatcher

/-! ## Reading the orders -/

namespace Order

/-- Whether an order moves the epoch on: all work ordered before it is worthless. -/
def movesEpoch : Order → Bool
  | .assign work _ => work.job.clean
  | .idle => true
  | .shutdown => false

/-- The orders since the last one to idle. -/
def sinceIdle (orders : List Order) : List Order :=
  orders.rtakeWhile fun order => order ≠ .idle

/-- The epoch behind orders that began in epoch `start`. -/
def epochBehind (start : UInt64) (orders : List Order) : UInt64 :=
  start + UInt64.ofNat (orders.countP movesEpoch)

/-- Every assignment bears the epoch behind it. -/
def Numbered (start : UInt64) (orders : List Order) : Prop :=
  ∀ earlier work epoch later, orders = earlier ++ .assign work epoch :: later →
    epoch = epochBehind start (earlier ++ [.assign work epoch])

/-- The work assigned since the epoch moved last; an assignment that moves it comes first. -/
def generation (orders : List Order) : List Work :=
  orders.foldl (fun works order =>
    match order with
    | .assign work _ => if work.job.clean then [work] else works ++ [work]
    | .idle => []
    | .shutdown => works) []

/-- The jobs of the latest assignments since the epoch moved. -/
def latestIds (orders : List Order) : List String :=
  ((generation orders).map fun work => work.job.id).rtake Dispatcher.recentJobs

variable {start : UInt64} {orders : List Order}

theorem epochBehind_concat (start : UInt64) (orders : List Order) (order : Order) :
    epochBehind start (orders ++ [order]) =
      if order.movesEpoch then epochBehind start orders + 1 else epochBehind start orders := by
  simp only [epochBehind, List.countP_append, List.countP_singleton]
  split
  · rw [UInt64.ofNat_add, UInt64.add_assoc]
    rfl
  · rw [Nat.add_zero]

theorem numbered_nil (start : UInt64) : Numbered start [] := by
  intro earlier work epoch later split
  exact absurd split.symm (by simp)

theorem Numbered.concat (numbered : Numbered start orders) {order : Order}
    (last : ∀ work epoch, order = .assign work epoch →
      epoch = epochBehind start (orders ++ [order])) :
    Numbered start (orders ++ [order]) := by
  intro earlier work epoch later split
  rcases List.eq_nil_or_concat later with rfl | ⟨between, final, rfl⟩
  · obtain ⟨rfl, same⟩ := List.append_inj' split rfl
    rw [List.singleton_inj] at same
    exact same ▸ last work epoch same
  · rw [List.concat_eq_append, ← List.cons_append, ← List.append_assoc] at split
    obtain ⟨rfl, -⟩ := List.append_inj' split rfl
    exact numbered earlier work epoch between rfl

/-- The last order, if it is an assignment, bears the epoch behind all orders. -/
theorem Numbered.getLast? (numbered : Numbered start orders) {work : Work} {epoch : UInt64}
    (last : orders.getLast? = some (.assign work epoch)) : epoch = epochBehind start orders := by
  obtain ⟨earlier, rfl⟩ := List.getLast?_eq_some_iff.mp last
  exact numbered earlier work epoch [] rfl

@[simp] theorem sinceIdle_idle (orders : List Order) : sinceIdle (orders ++ [.idle]) = [] := by
  rw [sinceIdle, List.rtakeWhile_concat_neg _ _ _ (by simp)]

@[simp] theorem sinceIdle_assign (orders : List Order) (work : Work) (epoch : UInt64) :
    sinceIdle (orders ++ [.assign work epoch]) = sinceIdle orders ++ [.assign work epoch] := by
  rw [sinceIdle, List.rtakeWhile_concat_pos _ _ _ (by simp), sinceIdle]

/-- If no worker is told to stop, the orders since the last one to idle, if there are any, end with
an assignment, and so do all orders. -/
theorem sinceIdle_cases (going : Order.shutdown ∉ orders) :
    sinceIdle orders = [] ∧ (∀ work epoch, orders.getLast? ≠ some (.assign work epoch)) ∨
      ∃ work epoch, orders.getLast? = some (.assign work epoch) ∧
        (sinceIdle orders).getLast? = some (.assign work epoch) := by
  rcases List.eq_nil_or_concat orders with rfl | ⟨earlier, last, rfl⟩
  · exact .inl ⟨rfl, by simp⟩
  · rw [List.concat_eq_append] at *
    cases last with
    | assign work epoch => exact .inr ⟨work, epoch, by simp, by simp⟩
    | idle => exact .inl ⟨by simp, by simp⟩
    | shutdown => exact absurd (by simp) going

theorem generation_concat (orders : List Order) (order : Order) :
    generation (orders ++ [order]) =
      match order with
      | .assign work _ => if work.job.clean then [work] else generation orders ++ [work]
      | .idle => []
      | .shutdown => generation orders := by
  rw [generation, List.foldl_append]
  rfl

/-- Behind an order that moves the epoch, only later assignments count. -/
theorem generation_append {later : List Order} (moved : later.any movesEpoch = true)
    (earlier : List Order) : generation (earlier ++ later) = generation later := by
  induction later using List.reverseRecOn with
  | nil => exact absurd moved (by simp)
  | append_singleton later order ih =>
      rw [← List.append_assoc, generation_concat, generation_concat]
      simp only [List.any_append, List.any_cons, List.any_nil, Bool.or_false,
        Bool.or_eq_true] at moved
      cases order with
      | assign work epoch =>
          by_cases clean : work.job.clean = true
          · simp only [if_pos clean]
          · simp only [if_neg clean, ih (moved.resolve_right clean)]
      | idle => rfl
      | shutdown => exact ih (moved.resolve_right (by simp [movesEpoch]))

theorem latestIds_append {later : List Order} (moved : later.any movesEpoch = true)
    (earlier : List Order) : latestIds (earlier ++ later) = latestIds later := by
  rw [latestIds, generation_append moved, latestIds]

theorem latestIds_idle (orders : List Order) : latestIds (orders ++ [.idle]) = [] := by
  rw [latestIds, generation_concat]
  rfl

end Order

/-- Pushing onto a full window drops its oldest entry. -/
theorem Dispatcher.remember_rtake (ids : List String) (job : Job) :
    remember (ids.rtake recentJobs) job =
      ((if job.clean then [] else ids) ++ [job.id]).rtake recentJobs := by
  have kept : (if job.clean then [] else ids.rtake recentJobs) =
      (if job.clean then [] else ids).rtake recentJobs := by
    split <;> simp
  rw [remember, kept]
  exact rtake_make_room _ _ (by decide)

namespace Dispatcher

/-- Whether a call makes all work issued before it worthless: a clean job or a new session with a
job at hand, as far as they come to an order, and always the end of the session. -/
def supersedes (dispatcher : Dispatcher) : DispatcherCall → Bool
  | .subscribe _ size => decide (1 ≤ size ∧ size ≤ 8) && dispatcher.current.isSome
  | .setDifficulty _ => false
  | .dispatch job => job.clean && dispatcher.session.isSome
  | .idle => true

/-- Such a call gives an order that moves the epoch. -/
theorem serve_of_supersedes {dispatcher : Dispatcher} {call : DispatcherCall}
    (supersedes : dispatcher.supersedes call = true) :
    ∃ order, (dispatcher.serve call).2 = some order ∧ order.movesEpoch = true ∧
      (dispatcher.serve call).1.epoch = dispatcher.epoch + 1 := by
  have served := dispatcher.serve_served call
  generalize (dispatcher.serve call).1 = after, (dispatcher.serve call).2 = order at served ⊢
  cases served with
  | refused unusable => exact absurd supersedes (by simp [Dispatcher.supersedes, unusable])
  | subscribed usable free => exact absurd supersedes (by simp [Dispatcher.supersedes, free])
  | resumed usable atHand issued =>
      refine ⟨_, rfl, ?_, ?_⟩
      · rw [Order.movesEpoch, issued.carries]
      · rw [issued.epoch, issued.moved, if_pos rfl]
  | eased => exact absurd supersedes (by simp [Dispatcher.supersedes])
  | held unsubscribed => exact absurd supersedes (by simp [Dispatcher.supersedes, unsubscribed])
  | @dispatched job _ _ _ issued =>
      have clean : job.clean = true := by
        simp only [Dispatcher.supersedes, Bool.and_eq_true] at supersedes
        exact supersedes.1
      refine ⟨_, rfl, ?_, ?_⟩
      · rw [Order.movesEpoch, issued.carries, clean]
      · rw [issued.epoch, issued.moved, if_pos clean]
  | idled => exact ⟨_, rfl, rfl, rfl⟩

/-! ### The end of the counter -/

/-- The dispatcher behind a call and the order, unless it fails for want of an epoch. -/
def serve? (dispatcher : Dispatcher) : DispatcherCall → Option (Dispatcher × Option Order)
  | .subscribe extranonce1 size =>
      match dispatcher.subscribe? extranonce1 size with
      | some (.ok next) => some next
      | some (.error _) => some (dispatcher, none)
      | none => none
  | .setDifficulty difficulty => some (dispatcher.setDifficulty difficulty, none)
  | .dispatch job => dispatcher.dispatch? job
  | .idle => some dispatcher.idle

/-- A dispatcher fails in the last epoch, when work is to be assigned in the next one.  To idle it
needs none. -/
theorem serve?_eq (dispatcher : Dispatcher) (call : DispatcherCall) :
    dispatcher.serve? call =
      if call ≠ .idle ∧ dispatcher.supersedes call = true ∧ dispatcher.isInLastEpoch = true then
        none
      else some (dispatcher.serve call) := by
  cases call with
  | subscribe extranonce1 size =>
      have refuses := dispatcher.subscribe_error_iff extranonce1 size
      cases result : dispatcher.subscribe extranonce1 size with
      | error fault =>
          have unusable := refuses.mp ⟨fault, result⟩
          simp [serve?, subscribe?, serve, supersedes, result, unusable]
      | ok next =>
          have usable : 1 ≤ size ∧ size ≤ 8 :=
            not_not.mp fun unusable => by simpa [result] using refuses.mpr unusable
          by_cases fails : dispatcher.current.isSome = true ∧ dispatcher.isInLastEpoch = true <;>
            simp [serve?, subscribe?, serve, supersedes, result, usable, fails]
  | setDifficulty difficulty => simp [serve?, serve, supersedes]
  | dispatch job => simp [serve?, dispatch?, serve, supersedes, and_comm, and_assoc]
  | idle => simp [serve?, serve]

/-- In the last epoch the counter of moves is full. -/
theorem isInLastEpoch_iff (dispatcher : Dispatcher) :
    dispatcher.isInLastEpoch = true ↔ dispatcher.epoch.toNat + 1 = 2 ^ 64 := by
  rw [isInLastEpoch, beq_iff_eq, ← UInt64.toNat_inj, UInt64.toNat_add]
  have bound := dispatcher.epoch.toNat_lt
  simp only [UInt64.toNat_one, UInt64.toNat_zero]
  omega

/-! ### What the orders say -/

/-- The epoch and the jobs wanted are those that the orders say. -/
structure Ordered (start : UInt64) (dispatcher : Dispatcher) (orders : List Order) : Prop where
  /-- No worker is told to stop altogether. -/
  going : Order.shutdown ∉ orders
  epoch : dispatcher.epoch = Order.epochBehind start orders
  numbered : Order.Numbered start orders
  recent : dispatcher.recent = Order.latestIds orders

variable {start : UInt64} {before after : Dispatcher} {orders : List Order}

theorem ordered_initial (start : UInt64) : Ordered start (initial start) [] where
  going := List.not_mem_nil
  epoch := by simp [initial, Order.epochBehind]
  numbered := Order.numbered_nil start
  recent := rfl

theorem Ordered.issue {job : Job} {work : Work} {epoch : UInt64}
    (ordered : Ordered start before orders) (issued : Issued before job after work epoch) :
    Ordered start after (orders ++ [.assign work epoch]) := by
  have moves : (Order.assign work epoch).movesEpoch = job.clean := by
    rw [Order.movesEpoch, issued.carries]
  have behind : epoch = Order.epochBehind start (orders ++ [.assign work epoch]) := by
    rw [Order.epochBehind_concat, moves, ← ordered.epoch]
    exact issued.moved
  refine ⟨by simpa using ordered.going, issued.epoch.trans behind, ordered.numbered.concat ?_, ?_⟩
  · intro otherWork otherEpoch same
    obtain ⟨rfl, rfl⟩ := Order.assign.inj same
    exact behind
  · rw [issued.recent, ordered.recent, Order.latestIds, remember_rtake, Order.latestIds,
      Order.generation_concat]
    simp only [issued.carries]
    split <;> simp [issued.carries]

/-- Every call keeps the orders telling. -/
theorem Ordered.serve {call : DispatcherCall} {order : Option Order}
    (ordered : Ordered start before orders) (served : Served before call after order) :
    Ordered start after (orders ++ order.toList) := by
  cases served with
  | refused unusable => simpa using ordered
  | subscribed usable free => simpa using { ordered with }
  | @resumed extranonce1 _ next _ _ _ _ usable atHand issued =>
      have subscribed :
          Ordered start { before with session := some { extranonce1, next } } orders :=
        { ordered with }
      exact subscribed.issue issued
  | eased => simpa using { ordered with }
  | held unsubscribed => simpa using { ordered with }
  | dispatched issued => exact ordered.issue issued
  | idled =>
      rw [Option.toList_some]
      refine ⟨by simpa using ordered.going, ?_, ordered.numbered.concat ?_, ?_⟩
      · rw [Order.epochBehind_concat, ordered.epoch, Order.movesEpoch, if_pos rfl]
      · intro work epoch same
        exact absurd same (by simp)
      · exact (Order.latestIds_idle orders).symm

end Dispatcher

/-! ## The desk -/

/-- A dispatcher with its history. -/
structure Desk where
  dispatcher : Dispatcher
  /-- The calls that it has served, oldest first. -/
  calls : List DispatcherCall
  /-- The orders that it has given, oldest first. -/
  orders : List Order
  deriving Repr, DecidableEq

namespace Desk

/-- The desk of a new dispatcher. -/
def opened (start : UInt64) : Desk :=
  { dispatcher := Dispatcher.initial start, calls := [], orders := [] }

/-- The desk behind a call. -/
def serve (desk : Desk) (call : DispatcherCall) : Desk :=
  { dispatcher := (desk.dispatcher.serve call).1
    calls := desk.calls ++ [call]
    orders := desk.orders ++ (desk.dispatcher.serve call).2.toList }

/-- The desk behind a list of calls. -/
def run (start : UInt64) (calls : List DispatcherCall) : Desk :=
  calls.foldl serve (opened start)

theorem run_concat (start : UInt64) (calls : List DispatcherCall) (call : DispatcherCall) :
    run start (calls ++ [call]) = (run start calls).serve call := by
  rw [run, List.foldl_append]
  rfl

/-- The epoch and the jobs wanted are those that the orders say. -/
def Ordered (start : UInt64) (desk : Desk) : Prop :=
  desk.dispatcher.Ordered start desk.orders

theorem Ordered.serve {start : UInt64} {desk : Desk} (ordered : desk.Ordered start)
    (call : DispatcherCall) : (desk.serve call).Ordered start :=
  Dispatcher.Ordered.serve ordered (desk.dispatcher.serve_served call)

theorem run_ordered (start : UInt64) (calls : List DispatcherCall) :
    (run start calls).Ordered start := by
  induction calls using List.reverseRecOn with
  | nil => exact Dispatcher.ordered_initial start
  | append_singleton calls call ih =>
      rw [run_concat]
      exact ih.serve call

/-! ### The end of the counter -/

/-- The desk behind a call, unless the dispatcher fails. -/
def serve? (desk : Desk) (call : DispatcherCall) : Option Desk :=
  (desk.dispatcher.serve? call).map fun (dispatcher, order) =>
    { dispatcher, calls := desk.calls ++ [call], orders := desk.orders ++ order.toList }

/-- The desk behind a list of calls, unless the dispatcher fails on one of them. -/
def run? (start : UInt64) (calls : List DispatcherCall) : Option Desk :=
  calls.foldlM serve? (opened start)

theorem run?_concat (start : UInt64) (calls : List DispatcherCall) (call : DispatcherCall) :
    run? start (calls ++ [call]) = (run? start calls).bind fun desk => desk.serve? call := by
  simp [run?, List.foldlM_append]

/-- What does not fail comes to the same. -/
theorem serve_of_serve? {desk after : Desk} {call : DispatcherCall}
    (served : desk.serve? call = some after) : after = desk.serve call := by
  rw [serve?, Dispatcher.serve?_eq] at served
  split at served
  · exact absurd served (by simp)
  · exact (Option.some.inj served).symm

theorem run_of_run? {start : UInt64} {calls : List DispatcherCall} {desk : Desk}
    (ran : run? start calls = some desk) : desk = run start calls := by
  induction calls using List.reverseRecOn generalizing desk with
  | nil => exact (Option.some.inj ran).symm
  | append_singleton calls call ih =>
      rw [run?_concat] at ran
      obtain ⟨before, earlier, served⟩ := Option.bind_eq_some_iff.mp ran
      rw [run_concat, ← ih earlier]
      exact serve_of_serve? served

/-- Until the epoch has been moved through all values, the dispatcher does not fail. -/
theorem run?_eq_some {start : UInt64} {calls : List DispatcherCall}
    (few : start.toNat + (run start calls).orders.countP Order.movesEpoch < 2 ^ 64) :
    run? start calls = some (run start calls) := by
  induction calls using List.reverseRecOn with
  | nil => rfl
  | append_singleton calls call ih =>
      have epoch := (run_ordered start calls).epoch
      rw [run_concat] at few ⊢
      simp only [serve, List.countP_append] at few
      rw [run?_concat, ih (by omega), Option.bind_some, serve?, Dispatcher.serve?_eq, if_neg]
      · rfl
      rintro ⟨-, supersedes, last⟩
      obtain ⟨order, given, moves, -⟩ := Dispatcher.serve_of_supersedes supersedes
      -- The call would be one move too many.
      have one : (run start calls).dispatcher.epoch.toNat =
          start.toNat + (run start calls).orders.countP Order.movesEpoch := by
        rw [epoch, Order.epochBehind, UInt64.toNat_add, UInt64.toNat_ofNat']
        omega
      rw [Dispatcher.isInLastEpoch_iff, one] at last
      simp only [given, Option.toList_some, List.countP_singleton, moves, if_true] at few
      omega

end Desk

end StratumMiner
