import Mathlib
import StratumMiner.Proofs.Mining.Crew

/-!
# Runs of a crew

Every event keeps the invariant of a crew, so every run does, whatever the order of its events.  At
rest, when no order is being handed round, it says that no job has been lost on its way to a worker.
-/

namespace StratumMiner

namespace Crew

/-- The invariant of a crew. -/
structure Sound (start : UInt64) (crew : Crew) : Prop where
  ordered : crew.desk.Ordered start
  /-- The order that is being handed round is the last one given. -/
  round : ∀ order next, crew.round = some (order, next) → crew.desk.orders.getLast? = some order
  members : ∀ index (member : Member), crew.members[index]? = some member →
    member.Sound crew.desk.orders (crew.due index)

variable {crew : Crew} {start : UInt64}

theorem sound_start (epoch : UInt64) (settings : List WorkerSettings) :
    (Crew.start epoch settings).Sound epoch where
  ordered := Dispatcher.ordered_initial epoch
  round := fun order next none => absurd none (by simp [Crew.start])
  members := by
    intro index member found
    simp only [Crew.start, List.getElem?_map, Option.map_eq_some_iff] at found
    obtain ⟨owner, -, rfl⟩ := found
    exact Member.sound_start owner

theorem Sound.call (sound : crew.Sound start) (free : crew.round = none) (call : DispatcherCall) :
    (crew.act (.call call)).Sound start := by
  have changed : crew.act (.call call) =
      { crew with
        desk := crew.desk.serve call
        round := (crew.desk.dispatcher.serve call).2.map fun order => (order, 0) } := by
    simp only [act, free]
  have members := sound.members
  simp only [due, free] at members
  rw [changed]
  refine ⟨sound.ordered.serve call, ?_, ?_⟩
  · intro order next round
    simp only [Option.map_eq_some_iff, Prod.mk.injEq] at round
    obtain ⟨order, given, rfl, -⟩ := round
    simp only [Desk.serve, given, Option.toList_some, List.getLast?_concat]
  · intro index member found
    simp only [Desk.serve, due]
    cases given : (crew.desk.dispatcher.serve call).2 with
    | none =>
        simp only [Option.toList_none, List.append_nil, Option.map_none]
        exact members index member found
    | some order =>
        simp only [Option.toList_some, Option.map_some, Nat.not_lt_zero, if_false,
          List.dropLast_concat]
        exact (members index member found).grow order

theorem Sound.deliver (sound : crew.Sound start) : (crew.act .deliver).Sound start := by
  cases round : crew.round with
  | none => simpa only [act, round] using sound
  | some handed =>
      obtain ⟨order, next⟩ := handed
      have last : crew.desk.orders.dropLast ++ [order] = crew.desk.orders :=
        List.dropLast_append_getLast? order (sound.round order next round)
      have members := sound.members
      simp only [due, round] at members
      simp only [act, round]
      split
      · refine ⟨sound.ordered, ?_, fun index member found => ?_⟩
        · intro other position same
          simp only [Option.some.injEq, Prod.mk.injEq] at same
          exact same.1 ▸ sound.round order next round
        · simp only [List.getElem?_modify, Option.map_eq_map, Option.map_eq_some_iff] at found
          obtain ⟨before, found, rfl⟩ := found
          have sent := members index before found
          simp only [due]
          by_cases here : next = index
          · subst here
            rw [if_neg (Nat.lt_irrefl _)] at sent
            rw [if_pos (Nat.lt_succ_self _), if_pos rfl]
            have told := sent.tell order
            rwa [last] at told
          · have same : (index < next + 1) = (index < next) := by
              rw [eq_iff_iff]
              omega
            simpa only [same, if_neg here] using sent
      · next beyond =>
          refine ⟨sound.ordered, fun other position none => absurd none (by simp),
            fun index member found => ?_⟩
          have inside : index < crew.members.length := (List.getElem?_eq_some_iff.mp found).1
          have sent := members index member found
          rwa [if_pos (by omega)] at sent

theorem Sound.act (sound : crew.Sound start) (event : CrewEvent) :
    (crew.act event).Sound start := by
  cases event with
  | call call =>
      cases round : crew.round with
      | none => exact sound.call round call
      | some handed => simpa only [Crew.act, round] using sound
  | deliver => exact sound.deliver
  | step index =>
      refine ⟨sound.ordered, sound.round, fun other member found => ?_⟩
      simp only [Crew.act, List.getElem?_modify, Option.map_eq_map, Option.map_eq_some_iff] at found
      obtain ⟨before, found, rfl⟩ := found
      have kept := sound.members other before found
      split
      · exact kept.step (crew.due_prefix other) sound.ordered crew.running
      · exact kept
  | stop => exact ⟨sound.ordered, sound.round, sound.members⟩

/-- Every run keeps the invariant. -/
theorem run_sound (epoch : UInt64) (settings : List WorkerSettings) (events : List CrewEvent) :
    (run epoch settings events).Sound epoch := by
  induction events using List.reverseRecOn with
  | nil => exact sound_start epoch settings
  | append_singleton events event ih =>
      rw [run_concat]
      exact ih.act event

/-- Whenever no order is being handed round, a worker that has not exited and has emptied its inbox
either is about to follow the last order of all, or is at the work of the last assignment since the
last order to idle, under the epoch of the dispatcher; or it has no work, and there was no such
assignment, or its work cannot be mined, or all attempts at it have been made. -/
theorem run_loses_no_job (epoch : UInt64) (settings : List WorkerSettings)
    (events : List CrewEvent) {member : Member}
    (present : member ∈ (run epoch settings events).members)
    (atRest : (run epoch settings events).round = none)
    (alive : member.worker.hasExited = false) (emptied : member.worker.inbox.orders = []) :
    let desk := (run epoch settings events).desk
    let orders := Order.sinceIdle desk.orders
    (∃ order, member.worker.inHand? = some order ∧ desk.orders.getLast? = some order) ∨
      member.worker.inHand? = none ∧
        ((∃ work, member.worker.task? = some (work, desk.dispatcher.epoch) ∧
            orders.getLast? = some (.assign work desk.dispatcher.epoch)) ∨
          member.worker.task? = none ∧
            (orders = [] ∨
              ∃ work, orders.getLast? = some (.assign work desk.dispatcher.epoch) ∧
                (work.validate ≠ .ok () ∨
                  member.ledger.Exhausted member.worker.settings work))) := by
  have sound := run_sound epoch settings events
  generalize run epoch settings events = crew at *
  obtain ⟨index, found⟩ := List.getElem?_of_mem present
  have kept := sound.members index member found
  have told : member.followed ++ member.worker.inHand?.toList = crew.desk.orders := by
    have sent := kept.told alive
    simpa only [Member.told, Worker.outstanding, emptied, List.append_nil, due, atRest] using sent
  cases inHand : member.worker.inHand? with
  | some order =>
      refine .inl ⟨order, rfl, ?_⟩
      rw [← told, inHand, Option.toList_some, List.getLast?_concat]
  | none =>
      refine .inr ⟨rfl, ?_⟩
      rw [inHand, Option.toList_none, List.append_nil] at told
      exact (kept.heeds alive).settled sound.ordered told

/-- A job with no branches and an easy target. -/
def sampleJob (id : String) (clean : Bool) : Job :=
  { id, prevHash := .replicate 32 0, coinbase1 := [1], coinbase2 := [2], branches := []
    version := 0x20000000, nbits := 0x1d00ffff, ntime := 0x5f5e1000, clean }

/-- A worker that owns all nonces. -/
def sampleSettings : WorkerSettings :=
  { name := "miner-0", range := .full, hasher := ⟨.scalar, .scalar⟩, rollNtime := false }

/-- A job is taken up; while another one that makes it worthless is on its way, the worker makes
steps. -/
def sampleEvents : List CrewEvent :=
  [.call (.subscribe [9] 2), .call (.dispatch (sampleJob "7" false)), .deliver, .deliver] ++
    List.replicate 4 (.step 0) ++ [.call (.dispatch (sampleJob "8" true)), .step 0, .deliver] ++
    List.replicate 4 (.step 0) ++ [.deliver]

set_option maxRecDepth 100000 in
/-- The worker is not left at the first job. -/
theorem run_loses_no_job_sample :
    ∃ member ∈ (run 0 [sampleSettings] sampleEvents).members,
      (run 0 [sampleSettings] sampleEvents).round = none ∧
        member.worker.hasExited = false ∧ member.worker.inbox.orders = [] ∧
        member.worker.inHand? = none ∧
        ∃ work, member.worker.task? = some (work, 1) ∧ work.job = sampleJob "8" true ∧
          (Order.sinceIdle (run 0 [sampleSettings] sampleEvents).desk.orders).getLast? =
            some (.assign work 1) := by
  obtain ⟨member, present, alive, emptied, free, busy⟩ :
      ∃ member ∈ (run 0 [sampleSettings] sampleEvents).members,
        member.worker.hasExited = false ∧ member.worker.inbox.orders = [] ∧
          member.worker.inHand? = none ∧
          member.worker.task?.map (fun task => (task.1.job, task.2)) =
            some (sampleJob "8" true, 1) := by
    decide +kernel
  have atRest : (run 0 [sampleSettings] sampleEvents).round = none := by decide +kernel
  have epoch : (run 0 [sampleSettings] sampleEvents).desk.dispatcher.epoch = 1 := by
    decide +kernel
  refine ⟨member, present, atRest, alive, emptied, free, ?_⟩
  rcases run_loses_no_job 0 [sampleSettings] sampleEvents present atRest alive emptied with
    ⟨order, inHand, -⟩ | ⟨-, ⟨work, task, last⟩ | ⟨rests, -⟩⟩
  · exact absurd (free.symm.trans inHand) (by simp)
  · rw [epoch] at task last
    rw [task, Option.map_some, Option.some.injEq, Prod.mk.injEq] at busy
    exact ⟨work, task, busy.1, last⟩
  · rw [rests] at busy
    exact absurd busy (by simp)

end Crew

end StratumMiner
