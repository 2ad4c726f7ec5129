import Mathlib
import StratumMiner.Proofs.Mining.WorkerCourse

/-!
# A worker that is left alone

A worker that has been given work, and sees the same epoch and a running miner in all its steps,
makes all attempts at the work and comes to rest.  Each step brings it nearer to that: it leaves
fewer attempts to be made, or it is closer to its next batch, or it has fewer shares to send.  At
rest its ledger holds one more entry, with the headers of all attempts and the shares of those that
hit.
-/

namespace StratumMiner

/-- What is left to be done in a search: the nonces of the pass, and for each roll that is left the
whole range and the roll itself. -/
def Search.left (settings : WorkerSettings) (search : Search) : Nat :=
  (settings.rolls - search.rolls) * (settings.range.stop - settings.range.start.toNat + 1) +
    (settings.range.stop - search.next)

theorem Search.left_advance_lt {settings : WorkerSettings} {search : Search}
    (unfinished : settings.range.stop - search.next ≠ 0) :
    (search.advance settings).left settings < search.left settings := by
  have size : 0 < settings.hasher.level.batchSize := by
    cases settings.hasher.level <;> decide
  have length : 0 < Worker.batchLength settings search :=
    Nat.lt_min.mpr ⟨Nat.pos_of_ne_zero unfinished, size⟩
  simp only [left, Search.advance]
  omega

theorem Search.left_roll_lt {settings : WorkerSettings} {search : Search}
    (finished : settings.range.stop ≤ search.next) (more : search.rolls < settings.rolls) :
    (search.roll settings).left settings < search.left settings := by
  obtain ⟨others, rolls⟩ := Nat.exists_eq_add_of_lt more
  have before : settings.rolls - search.rolls = others + 1 := by omega
  have behind : settings.rolls - (search.rolls + 1) = others := by omega
  have none : settings.range.stop - search.next = 0 := Nat.sub_eq_zero_of_le finished
  simp only [left, Search.roll, before, behind, none, Nat.succ_mul]
  omega

namespace Worker

/-- Whether a worker is at rest: it has no work, no order has come in, and some still can. -/
def isIdle (worker : Worker) : Bool :=
  match worker.stage with
  | .ready none | .waiting => worker.inbox.orders.isEmpty && worker.inbox.isOpen
  | _ => false

/-! ## Getting nearer -/

/-- The steps that a worker at this point is away from its next batch, or from having sent all its
shares and the next batch behind them. -/
def distance : WorkerStage → Nat
  | .searching _ _ _ .hashing => 1
  | .searching _ _ _ .inbox => 2
  | .searching _ _ _ .epoch => 3
  | .searching _ _ _ .running => 4
  | .ready _ => 5
  | .searching _ _ _ (.sending _ others) => 6 + others.length
  | .waiting | .following _ _ | .exited => 0

/-- What is left to be done, and how far the next part of it is. -/
def ahead (worker : Worker) : Nat × Nat :=
  ((worker.search?.map (Search.left worker.settings)).getD 0, distance worker.stage)

/-- Less is left to be done, or the next part of it is nearer. -/
def Nearer (after before : Nat × Nat) : Prop :=
  after.1 < before.1 ∨ after.1 = before.1 ∧ after.2 < before.2

/-- A worker at a task goes on with it and is nearer to its end than the bound, or rests. -/
inductive Proceeds (task : Work × UInt64) (bound : Nat × Nat) (worker after : Worker) : Prop where
  | goesOn (same : after.task? = some task) (nothing : after.inHand? = none)
      (inbox : after.inbox = worker.inbox) (nearer : Nearer after.ahead bound)
  | rests (stage : after.stage = .ready none) (inbox : after.inbox = worker.inbox)

variable {worker : Worker} {search : Search} {batches hashed : Nat} {bound : Nat × Nat}
  {epoch : UInt64}

theorem exhaust_proceeds (finished : worker.settings.range.stop ≤ search.next)
    (near : search.left worker.settings ≤ bound.1) :
    Proceeds (search.work, search.epoch) bound worker (worker.exhaust search hashed).1 := by
  unfold exhaust
  split
  · next more =>
      simp only [Bool.and_eq_true, decide_eq_true_eq] at more
      have room : search.rolls < worker.settings.rolls := by
        rw [WorkerSettings.rolls, if_pos more.1]
        exact more.2
      exact .goesOn rfl rfl rfl (.inl (Nat.lt_of_lt_of_le (Search.left_roll_lt finished room) near))
  · exact .rests rfl rfl

theorem afterBatch_proceeds (search : Search)
    (near : Nearer (search.left worker.settings, 5) bound) :
    Proceeds (search.work, search.epoch) bound worker
      (worker.afterBatch search batches hashed).1 := by
  unfold afterBatch
  split
  · refine .goesOn rfl rfl rfl (near.imp_right fun same => ⟨same.1, ?_⟩)
    exact Nat.lt_trans (by decide : 4 < 5) same.2
  · split
    · next finished =>
        exact exhaust_proceeds finished (near.elim Nat.le_of_lt fun same => Nat.le_of_eq same.1)
    · exact .goesOn rfl rfl rfl near

theorem hash_proceeds :
    Proceeds (search.work, search.epoch) (search.left worker.settings, 1) worker
      (worker.hash search batches hashed).1 := by
  unfold hash
  split
  · next finished => exact exhaust_proceeds (Nat.le_of_sub_eq_zero finished) (Nat.le_refl _)
  · next unfinished =>
      have less := Search.left_advance_lt unfinished
      simp only
      split
      · exact afterBatch_proceeds (search.advance worker.settings) (.inl less)
      · exact .goesOn rfl rfl rfl (.inl less)

theorem stepSearch_proceeds {point : BatchPoint}
    (stage : worker.stage = .searching search batches hashed point)
    (inbox : worker.inbox = { orders := [], isOpen := true }) :
    Proceeds (search.work, search.epoch) worker.ahead worker
      (worker.stepSearch true search.epoch search batches hashed point).1 := by
  have ahead : worker.ahead =
      (search.left worker.settings, distance (.searching search batches hashed point)) := by
    simp only [Worker.ahead, search?, stage, Option.map_some, Option.getD_some]
  rw [ahead]
  cases point with
  | running => exact .goesOn rfl rfl rfl (.inr ⟨rfl, (by decide : 3 < 4)⟩)
  | epoch =>
      simp only [stepSearch, if_true]
      exact .goesOn rfl rfl rfl (.inr ⟨rfl, (by decide : 2 < 3)⟩)
  | inbox =>
      simp only [stepSearch, inbox, if_true]
      exact .goesOn rfl rfl inbox.symm (.inr ⟨rfl, (by decide : 1 < 2)⟩)
  | hashing => exact hash_proceeds
  | sending share others =>
      cases others with
      | nil => exact afterBatch_proceeds search (.inr ⟨rfl, by simp [distance]⟩)
      | cons next others =>
          exact .goesOn rfl rfl rfl (.inr ⟨rfl, Nat.lt_succ_self (6 + others.length)⟩)

/-- A worker at a search that sees its epoch, and that no order has reached, gets nearer to the end
of it, or rests. -/
theorem step_proceeds {work : Work} (inbox : worker.inbox = { orders := [], isOpen := true })
    (task : worker.task? = some (work, epoch)) (nothing : worker.inHand? = none) :
    Proceeds (work, epoch) worker.ahead worker (worker.step true epoch).1 := by
  unfold step
  cases stage : worker.stage with
  | ready inHand =>
      simp only [task?, search?, stage, Option.map_eq_some_iff, Prod.mk.injEq] at task
      obtain ⟨search, rfl, rfl, rfl⟩ := task
      refine .goesOn rfl rfl rfl ?_
      simp only [ahead, search?, stage]
      exact .inr ⟨rfl, (by decide : 4 < 5)⟩
  | waiting => exact absurd task (by simp [task?, search?, stage])
  | following inHand order => exact absurd nothing (by simp [inHand?, stage])
  | searching search batches hashed point =>
      simp only [task?, search?, stage, Option.map_some, Option.some.injEq, Prod.mk.injEq] at task
      obtain ⟨rfl, rfl⟩ := task
      exact stepSearch_proceeds stage inbox
  | exited => exact absurd task (by simp [task?, search?, stage])

/-! ## The entry of the work in hand -/

/-- Of the effects of a step, none opens an entry. -/
def OpensNone (effects : List Effect) : Prop :=
  ∀ work, .note (.starting work) ∉ effects

theorem exhaust_opensNone : OpensNone (worker.exhaust search hashed).2 := by
  unfold exhaust
  split <;> simp [OpensNone, toTop]

theorem afterBatch_opensNone : OpensNone (worker.afterBatch search batches hashed).2 := by
  unfold afterBatch
  split
  · simp [OpensNone]
  · split
    · exact exhaust_opensNone
    · simp [OpensNone, toTop]

theorem hash_opensNone : OpensNone (worker.hash search batches hashed).2 := by
  unfold hash
  split
  · exact exhaust_opensNone
  · simp only
    split
    · exact afterBatch_opensNone
    · simp [OpensNone]

theorem stepSearch_opensNone (running : Bool) (point : BatchPoint) :
    OpensNone (worker.stepSearch running epoch search batches hashed point).2 := by
  cases point with
  | running => cases running <;> simp [stepSearch, OpensNone, exit]
  | epoch =>
      simp only [stepSearch]
      split <;> simp [OpensNone, toTop]
  | inbox =>
      simp only [stepSearch]
      split
      · simp [OpensNone]
      · split <;> simp [OpensNone, exit]
  | hashing => exact hash_opensNone
  | sending share others =>
      cases others with
      | nil =>
          have rest : OpensNone (worker.afterBatch search batches hashed).2 := afterBatch_opensNone
          simpa [stepSearch, OpensNone] using rest
      | cons next others => simp [stepSearch, OpensNone]

/-- Only following an order opens an entry. -/
theorem step_opensNone (nothing : worker.inHand? = none) (running : Bool) :
    OpensNone (worker.step running epoch).2 := by
  unfold step
  cases stage : worker.stage with
  | ready inHand => cases running <;> cases inHand <;> simp [OpensNone, exit]
  | waiting =>
      simp only
      split
      · simp [OpensNone]
      · split <;> simp [OpensNone, toTop, exit]
  | following inHand order => exact absurd nothing (by simp [inHand?, stage])
  | searching search batches hashed point => exact stepSearch_opensNone running point
  | exited => simp [OpensNone]

end Worker

/-- Entries with the same ones behind the latest. -/
def Ledger.Heads (earlier : List Stint) (ledger : Ledger) : Prop :=
  ∃ latest, ledger.stints = latest :: earlier

namespace Ledger

variable {earlier : List Stint} {ledger : Ledger}

theorem Heads.hash (heads : ledger.Heads earlier) (headers : List HeaderBytes) :
    (ledger.hash headers).Heads earlier := by
  obtain ⟨latest, entries⟩ := heads
  exact ⟨{ latest with headers := latest.headers ++ headers }, by simp [Ledger.hash, entries]⟩

theorem Heads.enter (heads : ledger.Heads earlier) {effect : Worker.Effect}
    (opensNone : ∀ work, effect ≠ .note (.starting work)) :
    (ledger.enter effect).Heads earlier := by
  obtain ⟨latest, entries⟩ := heads
  cases effect with
  | count hashes => exact ⟨latest, entries⟩
  | send share =>
      exact ⟨{ latest with shares := latest.shares ++ [share] }, by
        simp [Ledger.enter, Ledger.send, entries]⟩
  | note note =>
      cases note with
      | starting work => exact absurd rfl (opensNone work)
      | _ => exact ⟨latest, entries⟩

theorem Heads.foldl_enter {effects : List Worker.Effect} (heads : ledger.Heads earlier)
    (opensNone : Worker.OpensNone effects) :
    (effects.foldl Ledger.enter ledger).Heads earlier := by
  induction effects generalizing ledger with
  | nil => exact heads
  | cons effect effects ih =>
      refine ih (heads.enter fun work same => opensNone work ?_)
        fun work member => opensNone work ?_
      · exact same ▸ List.mem_cons_self
      · exact List.mem_cons_of_mem _ member

end Ledger

/-- What a ledger gains by all attempts at a piece of work. -/
structure Ledger.Gains (settings : WorkerSettings) (work : Work) (before after : Ledger) :
    Prop where
  hashed : after.hashed = before.hashed ++ (settings.attempts work).map work.headerBytes
  sent : after.sent =
    before.sent ++ ((settings.attempts work).filter work.hits).map work.share
  counted : after.counted = before.counted + UInt64.ofNat (settings.attempts work).length

namespace Worker

/-! ## Alone with a task -/

variable {settings : WorkerSettings} {work : Work} {epoch : UInt64} {earlier : List Stint}
  {recorded : Recorded}

/-- A worker at a task that no order can take away from it, with its ledger. -/
structure Sweeping (settings : WorkerSettings) (work : Work) (epoch : UInt64)
    (earlier : List Stint) (recorded : Recorded) : Prop where
  accounted : Accounted settings recorded
  inbox : recorded.1.inbox = { orders := [], isOpen := true }
  task : recorded.1.task? = some (work, epoch)
  nothing : recorded.1.inHand? = none
  heads : recorded.2.Heads earlier

/-- A worker that has made all attempts at a piece of work and is at rest, with its ledger. -/
structure Swept (settings : WorkerSettings) (work : Work) (earlier : List Stint)
    (recorded : Recorded) : Prop where
  accounted : Accounted settings recorded
  idle : recorded.1.isIdle = true
  all : recorded.2.Exhausted settings work
  heads : recorded.2.Heads earlier

/-- A step brings the worker nearer to the end of its task, or it is done. -/
theorem Sweeping.step (sweeping : Sweeping settings work epoch earlier recorded) :
    Sweeping settings work epoch earlier (record recorded (.step true epoch)) ∧
        Nearer (record recorded (.step true epoch)).1.ahead recorded.1.ahead ∨
      Swept settings work earlier (record recorded (.step true epoch)) := by
  obtain ⟨worker, ledger⟩ := recorded
  have accounted := record_accounted sweeping.accounted (.step true epoch)
  have heads : (record (worker, ledger) (.step true epoch)).2.Heads earlier :=
    (sweeping.heads.hash _).foldl_enter (step_opensNone sweeping.nothing true)
  cases step_proceeds sweeping.inbox sweeping.task sweeping.nothing with
  | goesOn same nothing inbox nearer =>
      exact .inl ⟨⟨accounted, inbox.trans sweeping.inbox, same, nothing, heads⟩, nearer⟩
  | rests stage inbox =>
      have quiet : worker.inbox = { orders := [], isOpen := true } := sweeping.inbox
      have idle : (worker.step true epoch).1.isIdle = true := by
        simp [isIdle, stage, inbox, quiet]
      refine .inr ⟨accounted, idle, ?_, heads⟩
      have none : (worker.step true epoch).1.task? = none := by
        simp only [task?, search?, stage, Option.map_none]
      cases step_course sweeping.accounted true epoch with
      | exits exited => exact absurd exited (by simp [record, hasExited, stage])
      | keeps nothing task entries =>
          exact absurd (none.symm.trans (task.trans sweeping.task)) (by simp)
      | takesUp inHand task => exact absurd (sweeping.nothing.symm.trans inHand) (by simp)
      | turnsDown inHand rests reason =>
          exact absurd (sweeping.nothing.symm.trans inHand) (by simp)
      | superseded nothing task old rests =>
          obtain ⟨-, rfl⟩ := Prod.mk.inj (Option.some.inj (sweeping.task.symm.trans task))
          exact absurd rfl old
      | exhausted nothing task rests all =>
          obtain ⟨rfl, -⟩ := Prod.mk.inj (Option.some.inj (sweeping.task.symm.trans task))
          rwa [accounted.1] at all

/-- The worker and its ledger behind so many steps in which it sees this epoch. -/
def steps (epoch : UInt64) (count : Nat) (recorded : Recorded) : Recorded :=
  (List.replicate count (.step true epoch)).foldl record recorded

theorem steps_add (epoch : UInt64) (first more : Nat) (recorded : Recorded) :
    steps epoch (first + more) recorded = steps epoch more (steps epoch first recorded) := by
  rw [steps, List.replicate_add, List.foldl_append]
  rfl

/-- So it is done after some number of steps. -/
theorem Sweeping.ends (recorded : Recorded)
    (sweeping : Sweeping settings work epoch earlier recorded) :
    ∃ count, Swept settings work earlier (steps epoch count recorded) := by
  rcases sweeping.step with ⟨goesOn, nearer⟩ | swept
  · obtain ⟨count, swept⟩ := Sweeping.ends (record recorded (.step true epoch)) goesOn
    exact ⟨1 + count, by rwa [steps_add]⟩
  · exact ⟨1, swept⟩
termination_by recorded.1.ahead
decreasing_by exact Prod.lex_def.mpr nearer

/-! ## At rest -/

theorem outside_of_isIdle {worker : Worker} (idle : worker.isIdle = true) :
    worker.unsent = [] ∧ worker.inChunk? = none := by
  cases stage : worker.stage with
  | ready inHand =>
      cases inHand with
      | none => simp only [unsent, inChunk?, stage, and_self]
      | some search => exact absurd idle (by simp [isIdle, stage])
  | waiting => simp only [unsent, inChunk?, stage, and_self]
  | following | searching | exited => exact absurd idle (by simp [isIdle, stage])

/-- A worker at rest stays at rest, and its ledger stays as it is. -/
theorem step_idle {worker : Worker} (idle : worker.isIdle = true) (ledger : Ledger)
    (epoch : UInt64) :
    (record (worker, ledger) (.step true epoch)).1.isIdle = true ∧
      (record (worker, ledger) (.step true epoch)).2 = ledger := by
  cases stage : worker.stage with
  | ready inHand =>
      cases inHand with
      | none =>
          simp only [isIdle, stage] at idle
          refine ⟨?_, ?_⟩
          · simpa only [record, step, stage, if_true, isIdle] using idle
          · simp only [record, step, stage, headersNow, Ledger.hash_nil, if_true, List.foldl_nil]
      | some search => exact absurd idle (by simp [isIdle, stage])
  | waiting =>
      simp only [isIdle, stage, Bool.and_eq_true, List.isEmpty_iff] at idle
      obtain ⟨orders, further⟩ := idle
      refine ⟨?_, ?_⟩
      · simp [record, step, stage, orders, further, toTop, isIdle]
      · simp [record, step, stage, orders, further, toTop, headersNow]
  | following | searching | exited => exact absurd idle (by simp [isIdle, stage])

theorem steps_accounted {recorded : Recorded} (accounted : Accounted settings recorded)
    (epoch : UInt64) (count : Nat) : Accounted settings (steps epoch count recorded) := by
  induction count generalizing recorded with
  | zero => exact accounted
  | succ count ih => exact ih (record_accounted accounted (.step true epoch))

theorem steps_idle {recorded : Recorded} (idle : recorded.1.isIdle = true) (epoch : UInt64)
    (count : Nat) :
    (steps epoch count recorded).1.isIdle = true ∧
      (steps epoch count recorded).2 = recorded.2 := by
  induction count generalizing recorded with
  | zero => exact ⟨idle, rfl⟩
  | succ count ih =>
      obtain ⟨still, same⟩ := step_idle idle recorded.2 epoch
      have behind := ih still
      rw [same] at behind
      exact behind

theorem Swept.steps (swept : Swept settings work earlier recorded) (epoch : UInt64)
    (count : Nat) : Swept settings work earlier (steps epoch count recorded) := by
  obtain ⟨idle, same⟩ := steps_idle swept.idle epoch count
  exact
    { accounted := steps_accounted swept.accounted epoch count
      idle
      all := same.symm ▸ swept.all
      heads := same.symm ▸ swept.heads }

/-! ## Taking up work -/

/-- A worker that waits and gets valid work follows the order and is at the work. -/
theorem steps_waiting {worker : Worker} (ledger : Ledger) (stage : worker.stage = .waiting)
    (inbox : worker.inbox = { orders := [.assign work epoch], isOpen := true })
    {template : HeaderTemplate} (made : work.headerTemplate = .ok template) :
    steps epoch 2 (worker, ledger) =
      ({ worker with
          inbox := { orders := [], isOpen := true }
          stage := .ready (some (Search.fresh worker.settings work template epoch)) },
        ledger.enter (.note (.starting work))) := by
  simp [steps, record, step, stage, inbox, headersNow, follow, begin, made, toTop, Search.fresh]

/-- A worker at rest that is told something comes to wait for it, in a step or at once. -/
theorem steps_tell {before : Recorded} (idle : before.1.isIdle = true) (order : Order)
    (epoch : UInt64) :
    ∃ few ≤ 1, steps epoch few (record before (.tell order)) =
      (⟨before.1.settings, { orders := [order], isOpen := true }, .waiting⟩, before.2) := by
  obtain ⟨⟨owner, ⟨orders, isOpen⟩, stage⟩, ledger⟩ := before
  cases stage with
  | ready inHand =>
      cases inHand with
      | none =>
          obtain ⟨rfl, rfl⟩ : orders = [] ∧ isOpen = true := by simpa [isIdle] using idle
          exact ⟨1, Nat.le_refl 1, by simp [steps, record, tell, step, headersNow]⟩
      | some search => exact absurd idle (by simp [isIdle])
  | waiting =>
      obtain ⟨rfl, rfl⟩ : orders = [] ∧ isOpen = true := by simpa [isIdle] using idle
      exact ⟨0, Nat.zero_le 1, rfl⟩
  | following | searching | exited => exact absurd idle (by simp [isIdle])

/-- A worker to which valid work has come and that waits is at it in two steps. -/
theorem sweeping_of_waiting {worker : Worker} {ledger : Ledger}
    (accounted : Accounted settings (worker, ledger)) (stage : worker.stage = .waiting)
    (inbox : worker.inbox = { orders := [.assign work epoch], isOpen := true })
    (valid : work.validate = .ok ()) :
    Sweeping settings work epoch ledger.stints (steps epoch 2 (worker, ledger)) := by
  obtain ⟨template, made⟩ : ∃ template, work.headerTemplate = .ok template := by
    simp only [Work.headerTemplate, valid]
    exact ⟨_, rfl⟩
  have behind := steps_accounted accounted epoch 2
  rw [steps_waiting ledger stage inbox made] at behind ⊢
  exact
    { accounted := behind, inbox := rfl, task := rfl, nothing := rfl
      heads := ⟨{ work, headers := [], shares := [] }, rfl⟩ }

/-- The latest entry of a worker that has made all attempts. -/
theorem Swept.stints (swept : Swept settings work earlier recorded) :
    recorded.2.stints =
      { work, headers := (settings.attempts work).map work.headerBytes
        shares := ((settings.attempts work).filter work.hits).map work.share } :: earlier := by
  obtain ⟨latest, entries⟩ := swept.heads
  obtain ⟨stint, first, rfl, headers⟩ := swept.all
  obtain rfl : latest = stint := by simpa [entries] using first
  obtain ⟨-, kept⟩ := swept.accounted
  obtain ⟨nothing, outside⟩ := outside_of_isIdle swept.idle
  rw [nothing, outside] at kept
  obtain ⟨tried, isPrefix, triedHeaders, shares⟩ := kept.sound_latest latest first
  -- As many headers as attempts have been hashed, so none of the attempts is missing.
  obtain rfl : tried = settings.attempts latest.work :=
    isPrefix.eq_of_length (by simpa using congrArg List.length (triedHeaders.symm.trans headers))
  rw [List.append_nil] at shares
  rw [entries, ← headers, ← shares]

/-- The ledger of a worker that has made all attempts, compared with that before. -/
theorem Swept.gains {before : Recorded} (accounted : Accounted settings before)
    (idle : before.1.isIdle = true) (swept : Swept settings work before.2.stints recorded) :
    before.2.Gains settings work recorded.2 := by
  obtain ⟨-, keptBefore⟩ := accounted
  obtain ⟨-, kept⟩ := swept.accounted
  obtain ⟨-, outsideBefore⟩ := outside_of_isIdle idle
  obtain ⟨nothing, outside⟩ := outside_of_isIdle swept.idle
  rw [outsideBefore] at keptBefore
  rw [nothing, outside] at kept
  have hashed : recorded.2.hashed =
      before.2.hashed ++ (settings.attempts work).map work.headerBytes := by
    rw [kept.hashed, keptBefore.hashed, swept.stints]
    simp
  refine ⟨hashed, ?_, ?_⟩
  · rw [kept.sent, keptBefore.sent, swept.stints]
    simp
  · have counted : recorded.2.counted = UInt64.ofNat recorded.2.hashed.length := by
      simpa using kept.counted
    have countedBefore : before.2.counted = UInt64.ofNat before.2.hashed.length := by
      simpa using keptBefore.counted
    rw [counted, countedBefore, hashed, List.length_append, List.length_map, UInt64.ofNat_add]

/-- The events of a worker that rests, gets work and is left alone with it. -/
def alone (work : Work) (epoch : UInt64) (waits count : Nat) : List WorkerEvent :=
  List.replicate waits (.step true epoch) ++
    .tell (.assign work epoch) :: List.replicate count (.step true epoch)

theorem foldl_alone (work : Work) (epoch : UInt64) (waits count : Nat) (recorded : Recorded) :
    (alone work epoch waits count).foldl record recorded =
      steps epoch count (record (steps epoch waits recorded) (.tell (.assign work epoch))) := by
  rw [alone, List.foldl_append]
  rfl

/-- A worker at rest that gets valid work and is left alone with it comes through it; a certain
number of steps is enough, however long it has waited, and more do not matter. -/
theorem alone_swept {before : Recorded} (accounted : Accounted settings before)
    (idle : before.1.isIdle = true) (valid : work.validate = .ok ()) (epoch : UInt64) :
    ∃ enough, ∀ waits, ∀ count ≥ enough,
      Swept settings work before.2.stints ((alone work epoch waits count).foldl record before) := by
  -- However long it waits, it starts on the work from the same state.
  have starts (waits : Nat) : ∃ few ≤ 1,
      Accounted settings (steps epoch few
        (record (steps epoch waits before) (.tell (.assign work epoch)))) ∧
      steps epoch few (record (steps epoch waits before) (.tell (.assign work epoch))) =
        (⟨settings, { orders := [.assign work epoch], isOpen := true }, .waiting⟩, before.2) := by
    have rests := steps_accounted accounted epoch waits
    obtain ⟨still, same⟩ := steps_idle idle epoch waits
    obtain ⟨few, atMost, waiting⟩ := steps_tell still (.assign work epoch) epoch
    rw [same, rests.1] at waiting
    exact ⟨few, atMost, steps_accounted (record_accounted rests _) epoch few, waiting⟩
  obtain ⟨first, -, told, waiting⟩ := starts 0
  rw [waiting] at told
  obtain ⟨more, swept⟩ := (sweeping_of_waiting told rfl rfl valid).ends
  refine ⟨1 + (2 + more), fun waits count enough => ?_⟩
  obtain ⟨few, atMost, -, waiting⟩ := starts waits
  obtain ⟨further, rfl⟩ : ∃ further, count = few + (2 + (more + further)) :=
    ⟨count - (few + (2 + more)), by omega⟩
  have behind := swept.steps epoch further
  rwa [← waiting, ← steps_add, ← steps_add, ← steps_add, ← foldl_alone] at behind

/-- A worker that is left alone with valid work makes all attempts and rests again. -/
theorem alone_sweeps {before : Recorded} (accounted : Accounted settings before)
    (idle : before.1.isIdle = true) (valid : work.validate = .ok ()) (epoch : UInt64) :
    ∃ enough, ∀ waits, ∀ count ≥ enough,
      ((alone work epoch waits count).foldl record before).1.isIdle = true ∧
        before.2.Gains settings work ((alone work epoch waits count).foldl record before).2 := by
  obtain ⟨enough, swept⟩ := alone_swept accounted idle valid epoch
  exact ⟨enough, fun waits count more =>
    ⟨(swept waits count more).idle, (swept waits count more).gains accounted idle⟩⟩

end Worker

end StratumMiner
