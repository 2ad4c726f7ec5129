import Mathlib
import StratumMiner.Proofs.Mining.DeskHistory
import StratumMiner.Proofs.Mining.Extranonce
import StratumMiner.Proofs.Mining.Merkle

/-!
# The work of one session

A session begins with a subscription that is not refused and lasts until the next one or until the
workers are told to idle.  Its work is numbered: each piece takes the next value of the second
extranonce, beginning with zero and wrapping around at the number of values that there are.  So
jobs that share their coinbase and branches come to different Merkle roots, one as often as there
are values, unless the hash function collides on the way.
-/

namespace StratumMiner

/-- Whether a call leaves the session installed. A subscription that is refused does. -/
def DispatcherCall.keepsSession : DispatcherCall → Bool
  | .subscribe _ size => !decide (1 ≤ size ∧ size ≤ 8)
  | .setDifficulty _ | .dispatch _ => true
  | .idle => false

/-- The work that an order assigns. -/
def Order.work? : Order → Option Work
  | .assign work _ => some work
  | .idle | .shutdown => none

/-- The work that has been dispatched, oldest first. -/
def Desk.works (desk : Desk) : List Work :=
  desk.orders.filterMap Order.work?

/-- The work has the first extranonce of a session, and the second says which number it has. -/
def Work.HasNumber (extranonce1 : Bytes) (size index : Nat) (work : Work) : Prop :=
  ∃ extranonce2, work.source = .computed extranonce1 extranonce2 ∧ extranonce2.size = size ∧
    extranonce2.value = index % 256 ^ size

/-- The parts of two jobs that go into the Merkle root are the same. -/
structure Job.SameTree (job other : Job) : Prop where
  coinbase1 : job.coinbase1 = other.coinbase1
  coinbase2 : job.coinbase2 = other.coinbase2
  branches : job.branches = other.branches

/-! ## Two pieces of work -/

/-- Numbers less than a round apart are different values. -/
theorem mod_ne_of_lt {first second round : Nat} (before : first < second)
    (near : second < first + round) : first % round ≠ second % round := by
  intro same
  have multiple : round ∣ second - first := (Nat.modEq_iff_dvd' before.le).mp same
  have least : round ≤ second - first := Nat.le_of_dvd (Nat.sub_pos_of_lt before) multiple
  omega

namespace Work

variable {extranonce1 : Bytes} {size first second : Nat} {work other : Work}

/-- Two pieces of a session with the same parts in their jobs have different roots if they are less
than a round apart, unless two strings collide. -/
theorem HasNumber.merkleRoot_ne (number : work.HasNumber extranonce1 size first)
    (otherNumber : other.HasNumber extranonce1 size second) (same : work.job.SameTree other.job)
    (before : first < second) (near : second < first + 256 ^ size) :
    work.merkleRoot ≠ other.merkleRoot ∨ Collide work.hashed other.hashed := by
  obtain ⟨extranonce2, source, sized, value⟩ := number
  obtain ⟨otherExtranonce2, otherSource, otherSized, otherValue⟩ := otherNumber
  refine Work.merkleRoot_ne source otherSource same.branches ?_
  have different : extranonce2.value ≠ otherExtranonce2.value := by
    rw [value, otherValue]
    exact mod_ne_of_lt before near
  simp only [coinbase, same.coinbase1, same.coinbase2, ne_eq, List.append_cancel_right_eq,
    List.append_cancel_left_eq]
  exact Extranonce2.toBytes_ne different

end Work

/-! ## The course of a session -/

/-- The work that an order assigns, if there is one. -/
def Order.worksOf (order : Option Order) : List Work :=
  order.toList.filterMap work?

namespace Dispatcher

/-- A subscription that is not refused installs a session that counts from zero, and takes up the
job at hand again. -/
theorem serve_subscribe (dispatcher : Dispatcher) (extranonce1 : Bytes) {size : Nat}
    (usable : 1 ≤ size ∧ size ≤ 8) :
    ∃ next : Extranonce2, next.size = size ∧ next.value = 0 ∧
      dispatcher.serve (.subscribe extranonce1 size) =
        dispatcher.current.elim ({ dispatcher with session := some { extranonce1, next } }, none)
          fun job =>
            { dispatcher with session := some { extranonce1, next } }.dispatch
              { job with clean := true } := by
  have fits : 0 < Nat.pow 256 size := Nat.pow_pos (by decide)
  refine ⟨⟨0, size, usable, fits⟩, rfl, rfl, ?_⟩
  have made : Extranonce2.make 0 size = .ok ⟨0, size, usable, fits⟩ := by
    rw [Extranonce2.make, dif_pos usable, dif_pos fits]
  simp only [serve, subscribe, made]
  cases dispatcher.current <;> rfl

/-- A dispatcher that has dispatched this work in its session. -/
structure InSession (extranonce1 : Bytes) (size : Nat) (works : List Work)
    (dispatcher : Dispatcher) : Prop where
  numbered : ∀ (index : Nat) (work : Work), works[index]? = some work →
    work.HasNumber extranonce1 size index
  session : ∃ next, dispatcher.session = some { extranonce1, next } ∧ next.size = size ∧
    next.value = works.length % 256 ^ size

variable {extranonce1 : Bytes} {size : Nat} {works : List Work} {before after : Dispatcher}
  {call : DispatcherCall} {order : Option Order}

/-- The next job of a session becomes the work with the next number. -/
theorem InSession.issue (inSession : InSession extranonce1 size works before) {job : Job}
    {work : Work} {epoch : UInt64} (issued : Issued before job after work epoch) :
    InSession extranonce1 size (works ++ [work]) after := by
  obtain ⟨next, installed, sized, value⟩ := inSession.session
  obtain ⟨session, its, kept, source⟩ := issued.source
  obtain rfl := Option.some.inj (installed.symm.trans its)
  constructor
  · intro index numbered found
    rcases Nat.lt_or_ge index works.length with inside | outside
    · rw [List.getElem?_append_left inside] at found
      exact inSession.numbered index numbered found
    · rw [List.getElem?_append_right outside, List.getElem?_singleton] at found
      split at found
      · next last =>
          obtain rfl := Option.some.inj found
          obtain rfl : index = works.length := by omega
          exact ⟨next, source, sized, value⟩
      · cases found
  · refine ⟨next.next, kept, ?_, ?_⟩
    · rw [Extranonce2.size_next, sized]
    · rw [Extranonce2.value_next, sized, value, Nat.mod_add_mod, List.length_append,
        List.length_singleton]

/-- As long as the session lasts, each job that comes becomes its next work. -/
theorem InSession.serve (inSession : InSession extranonce1 size works before)
    (served : Served before call after order) (lasts : call.keepsSession = true) :
    InSession extranonce1 size (works ++ Order.worksOf order) after ∧
      (Order.worksOf order).map Work.job = call.job?.toList := by
  cases served with
  | refused | eased =>
      rw [show Order.worksOf none = [] from rfl, List.append_nil]
      exact ⟨⟨inSession.numbered, inSession.session⟩, rfl⟩
  | subscribed usable | resumed usable =>
      simp [DispatcherCall.keepsSession, usable] at lasts
  | held unsubscribed =>
      obtain ⟨next, installed, -⟩ := inSession.session
      exact absurd (unsubscribed.symm.trans installed) (by simp)
  | dispatched issued =>
      refine ⟨inSession.issue issued, ?_⟩
      exact congrArg (fun job => [job]) issued.carries
  | idled => cases lasts

/-- A session begins with the job at hand, if there is one. -/
theorem inSession_subscribe (dispatcher : Dispatcher) (extranonce1 : Bytes) {size : Nat}
    (usable : 1 ≤ size ∧ size ≤ 8) :
    let next := dispatcher.serve (.subscribe extranonce1 size)
    InSession extranonce1 size (Order.worksOf next.2) next.1 ∧
      (Order.worksOf next.2).map Work.job =
        (dispatcher.current.map fun job => { job with clean := true }).toList := by
  obtain ⟨first, sized, zero, served⟩ := dispatcher.serve_subscribe extranonce1 usable
  have opened : InSession extranonce1 size []
      { dispatcher with session := some { extranonce1, next := first } } :=
    ⟨by simp, first, rfl, sized, by simp [zero]⟩
  rw [served]
  obtain ⟨session, difficulty, current, recent, epoch⟩ := dispatcher
  cases current with
  | none => exact ⟨opened, rfl⟩
  | some job =>
      obtain ⟨work, workEpoch, order, issued⟩ := dispatch_of_session
        ⟨some { extranonce1, next := first }, difficulty, some job, recent, epoch⟩
        { job with clean := true } rfl
      simp only [Option.elim_some, order]
      exact ⟨opened.issue issued, congrArg (fun job => [job]) issued.carries⟩

end Dispatcher

namespace Desk

theorem works_concat (start : UInt64) (calls : List DispatcherCall) (call : DispatcherCall) :
    (run start (calls ++ [call])).works =
      (run start calls).works ++ Order.worksOf ((run start calls).dispatcher.serve call).2 := by
  rw [works, orders_concat, List.filterMap_append]
  rfl

/-- In a session the work is numbered, whatever came before it. -/
theorem run_inSession (start : UInt64) (earlier : List DispatcherCall) (extranonce1 : Bytes)
    {size : Nat} (usable : 1 ≤ size ∧ size ≤ 8) (later : List DispatcherCall)
    (lasts : ∀ call ∈ later, call.keepsSession = true) :
    ∃ works,
      (run start (earlier ++ .subscribe extranonce1 size :: later)).works =
          (run start earlier).works ++ works ∧
        works.map Work.job =
          ((run start earlier).dispatcher.current.map fun job =>
              { job with clean := true }).toList ++
            later.filterMap DispatcherCall.job? ∧
        (run start (earlier ++ .subscribe extranonce1 size :: later)).dispatcher.InSession
          extranonce1 size works := by
  induction later using List.reverseRecOn with
  | nil =>
      obtain ⟨inSession, jobs⟩ :=
        (run start earlier).dispatcher.inSession_subscribe extranonce1 usable
      refine ⟨_, works_concat start earlier _, ?_, ?_⟩
      · rw [jobs, List.filterMap_nil, List.append_nil]
      · rw [dispatcher_concat]
        exact inSession
  | append_singleton later call ih =>
      have before : ∀ call ∈ later, call.keepsSession = true := fun call member =>
        lasts call (List.mem_append_left _ member)
      obtain ⟨works, given, jobs, inSession⟩ := ih before
      obtain ⟨goesOn, job⟩ := inSession.serve (Dispatcher.serve_served _ call)
        (lasts call (by simp))
      have split : earlier ++ .subscribe extranonce1 size :: (later ++ [call]) =
          earlier ++ .subscribe extranonce1 size :: later ++ [call] := by simp
      rw [split, dispatcher_concat, works_concat, given]
      refine ⟨_, List.append_assoc _ _ _, ?_, goesOn⟩
      rw [List.map_append, jobs, job, List.append_assoc, List.filterMap_append]
      cases call <;> rfl

/-- In a session each job that comes, and first the job at hand, becomes work under the first
extranonce of the session, with its number as the second.  So the Merkle roots of two pieces less
than a round apart differ if their jobs share the coinbase and the branches, unless two strings
collide. -/
theorem session_work_is_fresh (start : UInt64) (earlier : List DispatcherCall)
    (extranonce1 : Bytes) {size : Nat} (usable : 1 ≤ size ∧ size ≤ 8)
    (later : List DispatcherCall) (lasts : ∀ call ∈ later, call.keepsSession = true) :
    let desk := run start (earlier ++ .subscribe extranonce1 size :: later)
    ∃ works, desk.works = (run start earlier).works ++ works ∧
      works.map Work.job =
        ((run start earlier).dispatcher.current.map fun job =>
            { job with clean := true }).toList ++
          later.filterMap DispatcherCall.job? ∧
      (∀ (index : Nat) (work : Work), works[index]? = some work →
        work.HasNumber extranonce1 size index) ∧
      ∀ (first second : Nat) (work other : Work), works[first]? = some work →
        works[second]? = some other → first < second → second < first + 256 ^ size →
          work.job.SameTree other.job →
            work.merkleRoot ≠ other.merkleRoot ∨ Collide work.hashed other.hashed := by
  intro desk
  obtain ⟨works, given, jobs, inSession⟩ :=
    run_inSession start earlier extranonce1 usable later lasts
  refine ⟨works, given, jobs, inSession.numbered, ?_⟩
  intro first second work other inFirst inSecond before near same
  exact (inSession.numbered first work inFirst).merkleRoot_ne
    (inSession.numbered second other inSecond) same before near

/-- A session of one-byte extranonces that takes up a job at hand; then a subscription is refused,
and the same job comes twice. -/
def sampleSession : List DispatcherCall :=
  [.subscribe [7] 9, .dispatch (Crew.sampleJob "7" false), .dispatch (Crew.sampleJob "7" false)]

theorem session_work_is_fresh_sample :
    (1 ≤ 1 ∧ 1 ≤ 8) ∧ (∀ call ∈ sampleSession, call.keepsSession = true) ∧
      ∃ first second third,
        (run 0 (.dispatch (Crew.sampleJob "7" true) :: .subscribe [9] 1 :: sampleSession)).works =
            [first, second, third] ∧
          third.HasNumber [9] 1 2 ∧
          (first.merkleRoot ≠ third.merkleRoot ∨ Collide first.hashed third.hashed) := by
  have usable : 1 ≤ 1 ∧ 1 ≤ 8 := by decide
  have lasts : ∀ call ∈ sampleSession, call.keepsSession = true := by decide
  refine ⟨usable, lasts, ?_⟩
  obtain ⟨works, given, jobs, numbered, fresh⟩ :=
    session_work_is_fresh 0 [.dispatch (Crew.sampleJob "7" true)] [9] usable sampleSession lasts
  have jobs : works.map Work.job =
      [Crew.sampleJob "7" true, Crew.sampleJob "7" false, Crew.sampleJob "7" false] :=
    jobs.trans (by decide +kernel)
  have three : works.length = 3 := by
    rw [← List.length_map Work.job, jobs]
    rfl
  obtain ⟨first, second, third, rfl⟩ := List.length_eq_three.mp three
  have same : first.job.SameTree third.job := by
    simp only [List.map_cons, List.map_nil, List.cons.injEq, and_true] at jobs
    rw [jobs.1, jobs.2.2]
    exact ⟨rfl, rfl, rfl⟩
  exact ⟨first, second, third, given, numbered 2 third rfl,
    fresh 0 2 first third rfl rfl (by decide) (by decide) same⟩

end Desk

end StratumMiner
