import Mathlib
import StratumMiner.Proofs.Mining.WorkerRun

/-!
# The course of a worker

What a step means for the work that a worker has in hand, told without batches and chunks: the
worker goes on with it, takes up other work or none because of an order, or drops it, because the
epoch has moved on or because all attempts have been made.  The orders that it has been sent and not
yet followed wait in a line, and it follows them in order, one at a time.
-/

namespace StratumMiner

namespace Worker

/-- The order that a worker is about to follow. -/
def inHand? (worker : Worker) : Option Order :=
  match worker.stage with
  | .following _ order => some order
  | _ => none

/-- The orders that a worker has been sent and has not followed. -/
def outstanding (worker : Worker) : List Order :=
  worker.inHand?.toList ++ worker.inbox.orders

/-- The work that a worker has in hand, with the epoch under which it was issued. -/
def task? (worker : Worker) : Option (Work × UInt64) :=
  worker.search?.map fun search => (search.work, search.epoch)

theorem task?_of_hasExited {worker : Worker} (exited : worker.hasExited = true) :
    worker.task? = none := by
  cases stage : worker.stage with
  | exited => simp only [task?, search?, stage, Option.map_none]
  | ready | waiting | following | searching =>
      exact absurd exited (by simp [hasExited, stage])

@[simp] theorem outstanding_tell (worker : Worker) (order : Order) :
    (worker.tell order).outstanding = worker.outstanding ++ [order] := by
  rw [outstanding, outstanding, List.append_assoc]
  rfl

/-! ## Following orders one at a time -/

section Outstanding

variable (worker : Worker) (search : Search) (batches hashed : Nat)

theorem outstanding_exhaust :
    (worker.exhaust search hashed).1.outstanding = worker.inbox.orders := by
  unfold exhaust
  split <;> rfl

theorem outstanding_afterBatch :
    (worker.afterBatch search batches hashed).1.outstanding = worker.inbox.orders := by
  unfold afterBatch
  split
  · rfl
  · split
    · exact worker.outstanding_exhaust search hashed
    · rfl

theorem outstanding_hash :
    (worker.hash search batches hashed).1.outstanding = worker.inbox.orders := by
  unfold hash
  split
  · exact worker.outstanding_exhaust search hashed
  · simp only
    split
    · exact worker.outstanding_afterBatch _ batches _
    · rfl

theorem outstanding_stepSearch (running : Bool) (epoch : UInt64) (point : BatchPoint) :
    (worker.stepSearch running epoch search batches hashed point).1.outstanding =
      worker.inbox.orders := by
  cases point with
  | running => cases running <;> rfl
  | epoch =>
      simp only [stepSearch]
      split <;> rfl
  | inbox =>
      simp only [stepSearch]
      split
      · next order orders waiting => rw [waiting]; rfl
      · split <;> rfl
  | hashing => exact worker.outstanding_hash search batches hashed
  | sending share others =>
      cases others with
      | nil => exact worker.outstanding_afterBatch search batches hashed
      | cons next others => rfl

theorem outstanding_follow (epoch : UInt64) (inHand : Option Search) (order : Order) :
    (worker.follow epoch inHand order).1.outstanding = worker.inbox.orders := by
  cases order with
  | assign work workEpoch =>
      simp only [follow, begin]
      split
      · split <;> rfl
      · rfl
  | idle => rfl
  | shutdown => rfl

/-- Behind a step, the order in hand has been followed and all others wait. -/
theorem outstanding_step (running : Bool) (epoch : UInt64) :
    (worker.step running epoch).1.outstanding = worker.inbox.orders := by
  unfold step
  split
  · split
    · split <;> rfl
    · rfl
  · split
    · next order orders waiting => rw [waiting]; rfl
    · split <;> rfl
  · exact worker.outstanding_follow epoch _ _
  · exact worker.outstanding_stepSearch _ _ _ running epoch _
  · next stage => simp only [outstanding, inHand?, stage, Option.toList_none, List.nil_append]

end Outstanding

end Worker

/-- The latest entry is for a piece of work and holds all attempts at it. -/
def Ledger.Exhausted (settings : WorkerSettings) (work : Work) (ledger : Ledger) : Prop :=
  ∃ stint, ledger.stints.head? = some stint ∧ stint.work = work ∧
    stint.headers = (settings.attempts work).map work.headerBytes

namespace Worker

/-! ## Going on with a search -/

/-- A worker that was at a search has it still, or has made all attempts. -/
def Continues (search : Search) (ledger : Ledger) (after : Worker × List Effect) : Prop :=
  after.1.task? = some (search.work, search.epoch) ∨
    after.1.task? = none ∧
      (after.2.foldl Ledger.enter ledger).Exhausted after.1.settings search.work

variable {worker : Worker} {ledger : Ledger} {search : Search} {hashed : Nat}

theorem exhaust_continues (kept : ledger.Kept worker.settings (some search) [] hashed)
    (finished : search.next = worker.settings.range.stop) :
    Continues search ledger (worker.exhaust search hashed) := by
  unfold exhaust
  split
  · exact .inl rfl
  · next noMore =>
      obtain ⟨latest, earlier, entries, follows, -⟩ := kept.entry
      have last : worker.settings.rolls ≤ search.rolls := by
        simp only [Bool.and_eq_true, decide_eq_true_eq, not_and, Nat.not_lt] at noMore
        unfold WorkerSettings.rolls
        split
        · next rolling => exact noMore rolling
        · exact Nat.zero_le _
      refine .inr ⟨rfl, latest, ?_, follows.work, ?_⟩
      · exact congrArg List.head? entries
      · rw [follows.headers, follows.onCourse.tried_eq_attempts finished last]
        rfl

theorem afterBatch_continues (kept : ledger.Kept worker.settings (some search) [] hashed)
    (batches : Nat) : Continues search ledger (worker.afterBatch search batches hashed) := by
  unfold afterBatch
  split
  · exact .inl rfl
  · split
    · next finished =>
        exact exhaust_continues kept (Nat.le_antisymm kept.onCourse.stop finished)
    · exact .inl rfl

theorem hash_continues (kept : ledger.Kept worker.settings (some search) [] hashed)
    (batches : Nat) :
    Continues search (ledger.hash (nextBatch worker.settings search))
      (worker.hash search batches hashed) := by
  unfold hash
  split
  · next finished =>
      have nothing : nextBatch worker.settings search = [] := by
        simp [nextBatch, batchLength, finished, HeaderTemplate.batch]
      rw [nothing, Ledger.hash_nil]
      exact exhaust_continues kept (by have stop := kept.onCourse.stop; omega)
  · have behind := kept.hash
    rw [← kept.onCourse.found_eq] at behind
    simp only
    split
    · next found =>
        rw [found] at behind
        exact afterBatch_continues behind batches
    · exact .inl rfl

/-! ## A step -/

/-- What a step means for the work in hand, for a worker that sees this epoch if it looks. -/
inductive Course (epoch : UInt64) (before after : Recorded) : Prop where
  | exits (exited : after.1.hasExited = true)
  | keeps (nothing : before.1.inHand? = none) (task : after.1.task? = before.1.task?)
      (entries : before.1.task? = none → after.2.stints = before.2.stints)
  | takesUp {work : Work} (inHand : before.1.inHand? = some (.assign work epoch))
      (task : after.1.task? = some (work, epoch))
  | turnsDown {order : Order} (inHand : before.1.inHand? = some order)
      (rests : after.1.task? = none)
      (reason : ∀ work workEpoch, order = .assign work workEpoch →
        workEpoch ≠ epoch ∨ work.validate ≠ .ok ())
  | superseded {work : Work} {workEpoch : UInt64} (nothing : before.1.inHand? = none)
      (task : before.1.task? = some (work, workEpoch)) (old : workEpoch ≠ epoch)
      (rests : after.1.task? = none)
  | exhausted {work : Work} {workEpoch : UInt64} (nothing : before.1.inHand? = none)
      (task : before.1.task? = some (work, workEpoch)) (rests : after.1.task? = none)
      (all : after.2.Exhausted after.1.settings work)

variable {settings : WorkerSettings} {inHand : Option Search} {running : Bool} {epoch : UInt64}

/-- Of a search that goes on or comes to its end. -/
theorem Course.of_continues (nothing : worker.inHand? = none)
    (task : worker.task? = some (search.work, search.epoch))
    (continues : Continues search (ledger.hash worker.headersNow) (worker.step running epoch)) :
    Course epoch (worker, ledger) (record (worker, ledger) (.step running epoch)) := by
  rcases continues with goesOn | ⟨rests, all⟩
  · exact .keeps nothing (goesOn.trans task.symm) fun none =>
      absurd (task.symm.trans none) (by simp)
  · exact .exhausted nothing task rests all

theorem follow_course {order : Order} (stage : worker.stage = .following inHand order) :
    Course epoch (worker, ledger) (record (worker, ledger) (.step running epoch)) := by
  have held : worker.inHand? = some order := by simp only [inHand?, stage]
  have behind : (record (worker, ledger) (.step running epoch)).1 =
      (worker.follow epoch inHand order).1 := by
    simp only [record, step, stage]
  cases order with
  | assign work workEpoch =>
      by_cases current : workEpoch = epoch
      · subst current
        cases made : work.headerTemplate with
        | ok template =>
            refine .takesUp held ?_
            rw [behind]
            simp only [follow, begin, made, if_true]
            rfl
        | error fault =>
            refine .turnsDown held ?_ fun other otherEpoch same => .inr ?_
            · rw [behind]
              simp only [follow, begin, made, if_true]
              rfl
            · obtain ⟨rfl, -⟩ := Order.assign.inj same
              intro valid
              simp only [Work.headerTemplate, valid] at made
              exact absurd made (by simp)
      · refine .turnsDown held ?_ fun other otherEpoch same => .inl ?_
        · rw [behind]
          simp only [follow, begin, if_neg current]
          rfl
        · obtain ⟨-, rfl⟩ := Order.assign.inj same
          exact current
  | idle =>
      refine .turnsDown held ?_ fun other otherEpoch same => absurd same (by simp)
      rw [behind]
      rfl
  | shutdown =>
      refine .exits ?_
      rw [behind]
      rfl

theorem stepSearch_course (accounted : Accounted settings (worker, ledger)) {batches : Nat}
    {point : BatchPoint} (stage : worker.stage = .searching search batches hashed point) :
    Course epoch (worker, ledger) (record (worker, ledger) (.step running epoch)) := by
  obtain ⟨owner, kept⟩ := accounted
  subst owner
  have nothing : worker.inHand? = none := by simp only [inHand?, stage]
  have task : worker.task? = some (search.work, search.epoch) := by
    simp only [task?, search?, stage, Option.map_some]
  have behind : worker.step running epoch =
      worker.stepSearch running epoch search batches hashed point := by
    simp only [step, stage]
  simp only [search?, inChunk?, stage, Option.getD_some] at kept
  cases point with
  | running =>
      cases running with
      | true => exact .of_continues nothing task (.inl (by rw [behind]; rfl))
      | false => exact .exits (by simp only [record, behind]; rfl)
  | epoch =>
      by_cases current : epoch = search.epoch
      · refine .of_continues nothing task (.inl ?_)
        rw [behind]
        simp only [stepSearch, if_pos current]
        rfl
      · refine .superseded nothing task (Ne.symm current) ?_
        simp only [record, behind, stepSearch, if_neg current]
        rfl
  | inbox =>
      cases orders : worker.inbox.orders with
      | cons order others =>
          refine .of_continues nothing task (.inl ?_)
          rw [behind]
          simp only [stepSearch, orders]
          rfl
      | nil =>
          cases further : worker.inbox.isOpen with
          | true =>
              refine .of_continues nothing task (.inl ?_)
              rw [behind]
              simp only [stepSearch, orders, further]
              rfl
          | false => exact .exits (by simp only [record, behind, stepSearch, orders, further]; rfl)
  | hashing =>
      simp only [unsent, stage] at kept
      refine .of_continues nothing task ?_
      rw [behind]
      have headers : worker.headersNow = nextBatch worker.settings search := by
        simp only [headersNow, stage]
      rw [headers]
      exact hash_continues kept batches
  | sending share others =>
      simp only [unsent, stage] at kept
      refine .of_continues nothing task ?_
      rw [behind]
      simp only [headersNow, stage, Ledger.hash_nil, stepSearch]
      cases others with
      | nil => exact afterBatch_continues kept.send batches
      | cons next others => exact .inl rfl

/-- Every step of a worker with its ledger takes one of these courses. -/
theorem step_course (accounted : Accounted settings (worker, ledger)) (running : Bool)
    (epoch : UInt64) :
    Course epoch (worker, ledger) (record (worker, ledger) (.step running epoch)) := by
  cases stage : worker.stage with
  | ready inHand =>
      have nothing : worker.inHand? = none := by simp only [inHand?, stage]
      cases running with
      | false => exact .exits (by simp only [record, step, stage]; rfl)
      | true =>
          refine .keeps nothing ?_ fun _ => ?_
          · cases inHand with
            | none => simp only [record, step, stage, task?, search?, if_true]
            | some search => simp only [record, step, stage, task?, search?, if_true]
          · cases inHand with
            | none => simp only [record, step, stage, headersNow, Ledger.hash_nil]; rfl
            | some search => simp only [record, step, stage, headersNow, Ledger.hash_nil]; rfl
  | waiting =>
      have nothing : worker.inHand? = none := by simp only [inHand?, stage]
      cases orders : worker.inbox.orders with
      | cons order others =>
          refine .keeps nothing ?_ fun _ => ?_
          · simp only [record, step, stage, orders, task?, search?]
          · simp only [record, step, stage, orders, headersNow, Ledger.hash_nil]
            rfl
      | nil =>
          cases further : worker.inbox.isOpen with
          | true =>
              refine .keeps nothing ?_ fun _ => ?_
              · simp only [record, step, stage, orders, further, toTop, task?, search?, if_true]
              · simp only [record, step, stage, orders, further, headersNow, Ledger.hash_nil]
                rfl
          | false =>
              refine .exits ?_
              simp only [record, step, stage, orders, further]
              rfl
  | following inHand order => exact follow_course stage
  | searching search batches hashed point => exact stepSearch_course accounted stage
  | exited =>
      refine .exits ?_
      simp only [record, step, stage, hasExited]

end Worker

end StratumMiner
