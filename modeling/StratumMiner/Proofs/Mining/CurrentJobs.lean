import Mathlib
import StratumMiner.Proofs.Mining.DeskHistory

/-!
# Which jobs are current

Shares are wanted for the jobs that have been dispatched last.  Which these are is told here by the
calls alone: a call dispatches a job if there is a session by then, so a job that is held does not
count, and a subscription that takes up a held job again does.  A job stays wanted until eight more
have been dispatched, a clean one has, or there has been a call to idle, whatever ids the others
have.  The dispatcher's queue of ids holds just those of the jobs wanted.
-/

namespace StratumMiner

namespace DispatcherCall

/-- The job that a call dispatches, told by the calls before it.  A job that comes is dispatched
when there has been a subscription since the last call to idle; a subscription dispatches the job
that came last since then, as a clean one. -/
def dispatched? (earlier : List DispatcherCall) : DispatcherCall → Option Job
  | .dispatch job => if (latest extranonce1? (sinceIdle earlier)).isSome then some job else none
  | .subscribe _ size =>
      if 1 ≤ size ∧ size ≤ 8 then
        (latest job? (sinceIdle earlier)).map fun job => { job with clean := true }
      else none
  | .setDifficulty _ => none
  | .idle => none

/-- The jobs that calls dispatch, one behind the other. -/
def dispatches (earlier : List DispatcherCall) : List DispatcherCall → List Job
  | [] => []
  | call :: later => (dispatched? earlier call).toList ++ dispatches (earlier ++ [call]) later

/-- A job with this id has been dispatched, and behind it there are no call to idle, no clean job
and fewer than `room` jobs. -/
inductive Wanted (room : Nat) (id : String) : List DispatcherCall → Prop where
  | intro {earlier later : List DispatcherCall} {call : DispatcherCall} {job : Job}
      (dispatched : dispatched? earlier call = some job)
      (named : job.id = id)
      (busy : .idle ∉ later)
      (unclean : ∀ other ∈ dispatches (earlier ++ [call]) later, other.clean = false)
      (few : (dispatches (earlier ++ [call]) later).length < room) :
      Wanted room id (earlier ++ call :: later)

variable {room : Nat} {id : String} {calls : List DispatcherCall} {call : DispatcherCall}

theorem dispatches_concat : ∀ (later earlier : List DispatcherCall) (call : DispatcherCall),
    dispatches earlier (later ++ [call]) =
      dispatches earlier later ++ (dispatched? (earlier ++ later) call).toList := by
  intro later
  induction later with
  | nil =>
      intro earlier call
      simp only [List.nil_append, dispatches, List.append_nil]
  | cons first later ih =>
      intro earlier call
      rw [List.cons_append, dispatches, ih, dispatches, List.append_assoc, List.append_assoc,
        List.singleton_append]

/-- A call among others is the last of them or comes before the last. -/
theorem concat_eq_append_cons {earlier later : List DispatcherCall} {issuing : DispatcherCall}
    (whole : calls ++ [call] = earlier ++ issuing :: later) :
    (calls = earlier ∧ call = issuing ∧ later = []) ∨
      ∃ between, later = between ++ [call] ∧ calls = earlier ++ issuing :: between := by
  rcases List.eq_nil_or_concat later with rfl | ⟨between, last, rfl⟩
  · left
    rcases List.append_inj' whole rfl with ⟨rfl, same⟩
    cases same
    exact ⟨rfl, rfl, rfl⟩
  · right
    rw [List.concat_eq_append, ← List.cons_append, ← List.append_assoc] at whole
    rcases List.append_inj' whole rfl with ⟨rfl, same⟩
    cases same
    exact ⟨between, List.concat_eq_append, rfl⟩

theorem not_wanted_nil : ¬Wanted room id [] := by
  intro wanted
  generalize empty : [] = calls at wanted
  cases wanted
  exact absurd empty.symm (by simp)

theorem not_wanted_idle : ¬Wanted room id (calls ++ [.idle]) := by
  intro wanted
  generalize whole : calls ++ [.idle] = all at wanted
  cases wanted with
  | intro dispatched named busy unclean few =>
      rcases concat_eq_append_cons whole with ⟨-, rfl, -⟩ | ⟨between, rfl, -⟩
      · exact absurd dispatched (by simp [dispatched?])
      · exact busy (by simp)

/-- The call that comes last dispatches a job with the id, or one with the id has been dispatched
before and the job that the last one dispatches leaves it wanted. -/
theorem wanted_concat_iff (busy : call ≠ .idle) :
    Wanted room id (calls ++ [call]) ↔
      (∃ job, dispatched? calls call = some job ∧ job.id = id ∧ 0 < room) ∨
        (∀ job ∈ (dispatched? calls call).toList, job.clean = false) ∧
          Wanted (room - (dispatched? calls call).toList.length) id calls := by
  have behind (earlier later : List DispatcherCall) (issuing : DispatcherCall) :
      dispatches (earlier ++ [issuing]) (later ++ [call]) =
        dispatches (earlier ++ [issuing]) later ++
          (dispatched? (earlier ++ issuing :: later) call).toList := by
    rw [dispatches_concat, List.append_assoc, List.singleton_append]
  constructor
  · intro wanted
    generalize whole : calls ++ [call] = all at wanted
    cases wanted with
    | intro dispatched named notIdle unclean few =>
        rcases concat_eq_append_cons whole with ⟨rfl, rfl, rfl⟩ | ⟨between, rfl, rfl⟩
        · left
          exact ⟨_, dispatched, named, few⟩
        · right
          rw [behind, List.forall_mem_append] at unclean
          rw [behind, List.length_append] at few
          rw [List.mem_append, not_or] at notIdle
          constructor
          · exact unclean.2
          · exact .intro dispatched named notIdle.1 unclean.1 (by omega)
  · intro cases
    rcases cases with ⟨job, dispatched, named, room⟩ | ⟨unclean, wanted⟩
    · exact .intro dispatched named List.not_mem_nil (by simp [dispatches]) room
    · cases wanted with
      | intro dispatched named notIdle before few =>
          rw [List.append_assoc, List.cons_append]
          apply Wanted.intro dispatched named
          · rw [List.mem_append, not_or, List.mem_singleton]
            exact ⟨notIdle, busy.symm⟩
          · rw [behind, List.forall_mem_append]
            exact ⟨before, unclean⟩
          · rw [behind, List.length_append]
            omega

end DispatcherCall

namespace Desk

open DispatcherCall (latest dispatched? Wanted)

/-- A call gives an order just when it dispatches a job, and the order assigns that job. -/
theorem serve_dispatched (start : UInt64) (calls : List DispatcherCall) {call : DispatcherCall}
    (busy : call ≠ .idle) :
    ((run start calls).dispatcher.serve call).2 = none ∧ dispatched? calls call = none ∨
      ∃ work epoch, ((run start calls).dispatcher.serve call).2 = some (.assign work epoch) ∧
        dispatched? calls call = some work.job := by
  have session := run_session start calls
  have current := run_current start calls
  have served := (run start calls).dispatcher.serve_served call
  generalize ((run start calls).dispatcher.serve call).1 = after,
    ((run start calls).dispatcher.serve call).2 = order at served ⊢
  cases served with
  | refused unusable =>
      left
      exact ⟨rfl, if_neg unusable⟩
  | subscribed usable free =>
      left
      rw [free] at current
      cases came : latest DispatcherCall.job? (DispatcherCall.sinceIdle calls) with
      | none => exact ⟨rfl, by rw [dispatched?, if_pos usable, came, Option.map_none]⟩
      | some job =>
          rw [came] at current
          cases current
  | @resumed extranonce1 size next job _ work epoch usable atHand issued =>
      right
      rw [atHand] at current
      cases came : latest DispatcherCall.job? (DispatcherCall.sinceIdle calls) with
      | none =>
          rw [came] at current
          cases current
      | some former =>
          rw [came] at current
          cases current with
          | some raises =>
              have same : ({ former with clean := true } : Job) = { job with clean := true } := by
                rcases raises with rfl | rfl <;> rfl
              refine ⟨work, epoch, rfl, ?_⟩
              rw [dispatched?, if_pos usable, came, Option.map_some, same, issued.carries]
  | eased =>
      left
      exact ⟨rfl, rfl⟩
  | held unsubscribed =>
      left
      rw [unsubscribed, Option.map_none] at session
      exact ⟨rfl, by rw [dispatched?, ← session]; rfl⟩
  | @dispatched job _ work epoch issued =>
      right
      rcases issued.source with ⟨former, installed, -, -⟩
      rw [installed, Option.map_some] at session
      refine ⟨work, epoch, rfl, ?_⟩
      rw [dispatched?, ← session, issued.carries]
      rfl
  | idled => exact absurd rfl busy

/-- The ids of the latest assignments since the epoch moved are those of the jobs wanted, however
many are looked at. -/
theorem mem_rtake_generation_iff (start : UInt64) (id : String) :
    ∀ (calls : List DispatcherCall) (room : Nat),
      id ∈ ((Order.generation (run start calls).orders).map fun work => work.job.id).rtake room ↔
        Wanted room id calls := by
  intro calls
  induction calls using List.reverseRecOn with
  | nil =>
      intro room
      exact iff_of_false (by simp [run, opened, Order.generation]) DispatcherCall.not_wanted_nil
  | append_singleton calls call ih =>
      intro room
      by_cases idle : call = .idle
      · rw [idle, orders_concat]
        refine iff_of_false ?_ DispatcherCall.not_wanted_idle
        simp [Dispatcher.serve, Dispatcher.idle, Order.generation_concat]
      · rw [DispatcherCall.wanted_concat_iff idle, ← ih, orders_concat]
        rcases serve_dispatched start calls idle with
          ⟨order, quiet⟩ | ⟨work, epoch, order, dispatched⟩
        · simp [order, quiet]
        · rw [order, dispatched, Option.toList_some, Order.generation_concat]
          cases room with
          | zero => simp
          | succ room =>
              by_cases clean : work.job.clean = true
              · simp only [if_pos clean, List.map_singleton]
                rw [← List.nil_append [work.job.id], List.rtake_concat_succ]
                simpa [clean] using eq_comm
              · simp only [if_neg clean, List.map_append, List.map_singleton,
                  List.rtake_concat_succ]
                simpa [clean, @eq_comm _ id] using or_comm

/-- A job id is current just when a job with this id is among the latest eight that have been
dispatched, none of which is older than the latest clean one or the latest call to idle.  A call that
dispatches no job, unless it is one to idle, leaves all as it was: a job that is held, a subscription
that is refused or finds no job, and a difficulty. -/
theorem run_isCurrent_iff (start : UInt64) (calls : List DispatcherCall) :
    (∀ id, (run start calls).dispatcher.isCurrent id = true ↔ Wanted 8 id calls) ∧
      ∀ call, call ≠ .idle → dispatched? calls call = none → ∀ id,
        (run start (calls ++ [call])).dispatcher.isCurrent id =
          (run start calls).dispatcher.isCurrent id := by
  have current (calls : List DispatcherCall) (id : String) :
      (run start calls).dispatcher.isCurrent id = true ↔ Wanted 8 id calls := by
    rw [Dispatcher.isCurrent, List.contains_iff_mem, (run_ordered start calls).recent]
    exact mem_rtake_generation_iff start id calls 8
  constructor
  · exact current calls
  · intro call busy quiet id
    rw [Bool.eq_iff_iff, current, current, DispatcherCall.wanted_concat_iff busy, quiet]
    simp

/-- A job is held, taken up by a session, and followed by another one. -/
def takenUpCalls : List DispatcherCall :=
  [.dispatch (Crew.sampleJob "5" false), .subscribe [9] 2, .dispatch (Crew.sampleJob "7" false)]

/-- The job that was held is current, and stays so behind a subscription that is refused. -/
theorem run_isCurrent_iff_takenUp :
    Wanted 8 "5" takenUpCalls ∧
      (run 0 takenUpCalls).dispatcher.isCurrent "5" = true ∧
      (run 0 (takenUpCalls ++ [.subscribe [9] 9])).dispatcher.isCurrent "5" = true := by
  have dispatched :
      dispatched? [.dispatch (Crew.sampleJob "5" false)] (.subscribe [9] 2) =
        some (Crew.sampleJob "5" true) := rfl
  have wanted : Wanted 8 "5" takenUpCalls :=
    .intro dispatched rfl (by decide) (by decide) (by decide)
  have current := (run_isCurrent_iff 0 takenUpCalls).1 "5"
  refine ⟨wanted, current.mpr wanted, ?_⟩
  rw [(run_isCurrent_iff 0 takenUpCalls).2 (.subscribe [9] 9) (by decide) (by decide)]
  exact current.mpr wanted

end Desk

end StratumMiner
