import Mathlib
import StratumMiner.Proofs.Mining.Partition
import StratumMiner.Proofs.Mining.Sweep

/-!
# Workers that share the nonce space

The workers of a team own the ranges of a partition.  They have nothing else in common, so whatever
order they make their steps in, each goes its own way.  Given the same work and left alone with it,
they make every attempt once between them: the ranges make up the nonce space, and every worker goes
over its range once for each time.
-/

namespace StratumMiner

/-! ## Every attempt once -/

/-- The attempt that a share is for. -/
def Share.attempt (share : Share) : Attempt :=
  ⟨share.ntime, share.nonce⟩

namespace Work

variable (work : Work) (range : NonceRange)

/-- The attempt so many seconds after the time of the job. -/
def attemptAt (roll : Nat) (nonce : UInt32) : Attempt :=
  ⟨work.job.ntime + UInt32.ofNat roll, nonce⟩

theorem length_passes (count : Nat) :
    (work.passes range count).length = count * range.nonces.length := by
  induction count with
  | zero => simp [passes]
  | succ count ih =>
      rw [passes_succ, List.length_append, ih, Nat.succ_mul]
      simp [pass, NonceRange.nonces]

/-- A pass has the attempts of its own time only, and each as often as the nonce is in the range. -/
theorem count_pass {roll other : Nat} (small : roll < UInt32.size)
    (smallOther : other < UInt32.size) (nonce : UInt32) :
    (work.pass other range.start.toNat range.stop).count (work.attemptAt roll nonce) =
      if other = roll then range.nonces.count nonce.toNat else 0 := by
  have below {number : Nat} (member : number ∈ range.nonces) : number < UInt32.size := by
    have bounded := range.bounded
    have ordered := range.ordered
    simp only [NonceRange.nonces, List.mem_range'_1] at member
    simp only [nonceSpace] at bounded
    omega
  have value {number : Nat} (member : number ∈ range.nonces) :
      (UInt32.ofNat number).toNat = number :=
    UInt32.toNat_ofNat'.trans (Nat.mod_eq_of_lt (below member))
  rw [pass, List.count_eq_countP, List.countP_map]
  split
  · next same =>
      subst same
      rw [List.count_eq_countP]
      apply List.countP_congr
      intro number member
      simp only [Function.comp_apply, attemptAt, beq_iff_eq, Attempt.mk.injEq, true_and]
      rw [← UInt32.toNat_inj, value member]
  · next different =>
      apply List.countP_eq_zero.mpr
      intro number member same
      simp only [Function.comp_apply, attemptAt, beq_iff_eq, Attempt.mk.injEq] at same
      have rolls : UInt32.ofNat other = UInt32.ofNat roll := by
        simpa using same.1
      rw [← UInt32.toNat_inj, UInt32.toNat_ofNat_of_lt' smallOther,
        UInt32.toNat_ofNat_of_lt' small] at rolls
      exact different rolls

theorem count_passes {roll count : Nat} (small : roll < UInt32.size) (atMost : count ≤ UInt32.size)
    (nonce : UInt32) :
    (work.passes range count).count (work.attemptAt roll nonce) =
      if roll < count then range.nonces.count nonce.toNat else 0 := by
  induction count with
  | zero => simp [passes]
  | succ count ih =>
      rw [passes_succ, List.count_append, ih (Nat.le_of_succ_le atMost),
        count_pass work range small atMost]
      split_ifs <;> omega

/-- The attempts at work of all workers together, in so many passes. -/
def allAttempts (workers count : Nat) : List Attempt :=
  (NonceRange.partition workers).flatMap fun range => work.passes range count

variable {work} {workers roll count : Nat}

/-- Passes over all ranges of a partition make every attempt once. -/
theorem count_allAttempts (positive : 0 < workers) (inside : roll < count)
    (atMost : count ≤ UInt32.size) (nonce : UInt32) :
    (work.allAttempts workers count).count (work.attemptAt roll nonce) = 1 := by
  have small : roll < UInt32.size := Nat.lt_of_lt_of_le inside atMost
  have once : ((NonceRange.partition workers).flatMap NonceRange.nonces).count nonce.toNat = 1 := by
    rw [NonceRange.flatMap_nonces_partition positive]
    exact List.count_eq_one_of_mem List.nodup_range (List.mem_range.mpr nonce.toNat_lt)
  rw [allAttempts, List.count_flatMap]
  rw [List.count_flatMap] at once
  rw [← once]
  congr 2
  funext range
  rw [Function.comp_apply, Function.comp_apply, count_passes work range small atMost, if_pos inside]

theorem mem_allAttempts {attempt : Attempt} (member : attempt ∈ work.allAttempts workers count) :
    ∃ roll < count, ∃ nonce, attempt = work.attemptAt roll nonce := by
  simp only [allAttempts, passes, List.mem_flatMap, List.mem_range] at member
  obtain ⟨range, -, roll, inside, inPass⟩ := member
  obtain ⟨ntime, -⟩ := mem_pass inPass
  refine ⟨roll, inside, attempt.nonce, ?_⟩
  rw [attemptAt, ← ntime]

/-- There is one share for each attempt that hits. -/
theorem count_shares (positive : 0 < workers) (inside : roll < count)
    (atMost : count ≤ UInt32.size) {nonce : UInt32}
    (hit : work.hits (work.attemptAt roll nonce) = true) :
    ((((work.allAttempts workers count).filter work.hits).map work.share).map Share.attempt).count
      (work.attemptAt roll nonce) = 1 := by
  have back : Share.attempt ∘ work.share = id := rfl
  rw [List.map_map, back, List.map_id, List.count_filter hit,
    count_allAttempts positive inside atMost]

end Work

namespace Ledger

variable {settings : WorkerSettings} {work : Work} {before after : Ledger}

/-- The shares sent since the ledger was as before. -/
def sharesSince (before after : Ledger) : List Share :=
  after.sent.drop before.sent.length

/-- The hashes reported since the ledger was as before. -/
def hashesSince (before after : Ledger) : Nat :=
  (after.counted - before.counted).toNat

theorem Gains.sharesSince_eq (gains : before.Gains settings work after) :
    before.sharesSince after = ((settings.attempts work).filter work.hits).map work.share := by
  rw [sharesSince, gains.sent, List.drop_left]

theorem Gains.hashesSince_eq (gains : before.Gains settings work after) :
    before.hashesSince after = (settings.rolls + 1) * settings.range.nonces.length := by
  have rolls : settings.rolls ≤ 600 := by
    unfold WorkerSettings.rolls
    split
    · exact Nat.le_refl 600
    · exact Nat.zero_le 600
  have nonces : settings.range.nonces.length ≤ 4294967296 := by
    rw [NonceRange.nonces, List.length_range']
    exact Nat.le_trans (Nat.sub_le _ _) settings.range.bounded
  have small : (settings.rolls + 1) * settings.range.nonces.length < UInt64.size :=
    Nat.lt_of_le_of_lt (Nat.mul_le_mul (Nat.succ_le_succ rolls) nonces) (by decide)
  rw [hashesSince, gains.counted, WorkerSettings.attempts, Work.length_passes,
    add_sub_cancel_left, UInt64.toNat_ofNat_of_lt' small]

end Ledger

/-- Workers side by side, each with its ledger. -/
abbrev Team := List Worker.Recorded

namespace Team

/-- Workers that have just started. -/
def start (settings : List WorkerSettings) : Team :=
  settings.map fun each => Worker.run each []

/-- The team behind an event of one of its workers. -/
def act (team : Team) (event : Nat × WorkerEvent) : Team :=
  team.modify event.1 fun member => Worker.record member event.2

/-- The team behind a list of events of its workers, in any order. -/
def run (settings : List WorkerSettings) (events : List (Nat × WorkerEvent)) : Team :=
  events.foldl act (start settings)

/-- The events of one worker. -/
def eventsOf (index : Nat) (events : List (Nat × WorkerEvent)) : List WorkerEvent :=
  events.filterMap fun event => if event.1 = index then some event.2 else none

theorem getElem?_foldl_act (team : Team) (events : List (Nat × WorkerEvent)) (index : Nat) :
    (events.foldl act team)[index]? =
      team[index]?.map fun member => (eventsOf index events).foldl Worker.record member := by
  induction events generalizing team with
  | nil => simp [eventsOf]
  | cons event events ih =>
      rw [List.foldl_cons, ih, act, List.getElem?_modify]
      by_cases its : event.1 = index
      · simp [eventsOf, its, Option.map_map, Function.comp_def]
      · simp [eventsOf, its]

/-- Each worker goes its own way. -/
theorem getElem?_run (settings : List WorkerSettings) (events : List (Nat × WorkerEvent))
    (index : Nat) :
    (run settings events)[index]? =
      settings[index]?.map fun each => Worker.run each (eventsOf index events) := by
  rw [run, getElem?_foldl_act, start, List.getElem?_map, Option.map_map]
  rfl

theorem eventsOf_append (index : Nat) (first more : List (Nat × WorkerEvent)) :
    eventsOf index (first ++ more) = eventsOf index first ++ eventsOf index more :=
  List.filterMap_append

/-- The shares that the workers have sent since the team was as before, worker by worker. -/
def sharesSince (before after : Team) : List Share :=
  (List.zipWith (fun old new => old.2.sharesSince new.2) before after).flatten

/-- The hashes that the workers have reported since the team was as before. -/
def hashesSince (before after : Team) : Nat :=
  (List.zipWith (fun old new => old.2.hashesSince new.2) before after).sum

variable {settings : List WorkerSettings} {history : List (Nat × WorkerEvent)} {work : Work}

/-- Of what two ledgers of each worker differ in. -/
theorem zipWith_run {α : Type} {compare : Worker.Recorded → Worker.Recorded → α}
    {value : WorkerSettings → α} {events : List (Nat × WorkerEvent)}
    (same : ∀ index each, settings[index]? = some each →
      compare (Worker.run each (eventsOf index history)) (Worker.run each (eventsOf index events)) =
        value each) :
    List.zipWith compare (run settings history) (run settings events) = settings.map value := by
  apply List.ext_getElem?
  intro index
  rw [List.getElem?_zipWith, getElem?_run, getElem?_run, List.getElem?_map]
  cases its : settings[index]? with
  | none => rfl
  | some each => exact congrArg some (same index each its)

/-- Whether all workers of a team get work and are left alone with it for this many steps; they may
get it at different times. -/
def AllAlone (settings : List WorkerSettings) (work : Work) (epoch : UInt64) (enough : Nat)
    (events : List (Nat × WorkerEvent)) : Prop :=
  ∀ index < settings.length, ∃ waits, ∃ count ≥ enough,
    eventsOf index events = Worker.alone work epoch waits count

/-- Every worker of a team at rest makes all its attempts and rests again. -/
theorem run_sweeps (idle : ∀ member ∈ run settings history, member.1.isIdle = true)
    (valid : work.validate = .ok ()) (epoch : UInt64) :
    ∃ enough, ∀ events, AllAlone settings work epoch enough events →
      ∀ index each, settings[index]? = some each →
        (Worker.run each (eventsOf index (history ++ events))).1.isIdle = true ∧
          (Worker.run each (eventsOf index history)).2.Gains each work
            (Worker.run each (eventsOf index (history ++ events))).2 := by
  have sweeps (index : Nat) : ∃ enough, ∀ each, settings[index]? = some each →
      ∀ waits, ∀ count ≥ enough,
        ((Worker.alone work epoch waits count).foldl Worker.record
            (Worker.run each (eventsOf index history))).1.isIdle = true ∧
          (Worker.run each (eventsOf index history)).2.Gains each work
            ((Worker.alone work epoch waits count).foldl Worker.record
              (Worker.run each (eventsOf index history))).2 := by
    cases its : settings[index]? with
    | none => exact ⟨0, by simp⟩
    | some each =>
        have member : Worker.run each (eventsOf index history) ∈ run settings history := by
          apply List.mem_of_getElem?
          rw [getElem?_run, its, Option.map_some]
        obtain ⟨enough, sweeps⟩ := Worker.alone_sweeps (Worker.run_accounted each _)
          (idle _ member) valid epoch
        refine ⟨enough, ?_⟩
        rintro _ ⟨⟩
        exact sweeps
  choose enough sweeps using sweeps
  refine ⟨(Finset.range settings.length).sup enough, ?_⟩
  intro events allAlone index each its
  have inside : index < settings.length := (List.getElem?_eq_some_iff.mp its).1
  obtain ⟨waits, count, atLeast, alone⟩ := allAlone index inside
  have most : enough index ≤ (Finset.range settings.length).sup enough :=
    Finset.le_sup (Finset.mem_range.mpr inside)
  have behind := sweeps index each its waits count (Nat.le_trans most atLeast)
  rw [← alone] at behind
  rw [eventsOf_append, Worker.run, List.foldl_append]
  exact behind

section Ranges

variable {workers rolls : Nat} {events : List (Nat × WorkerEvent)}

/-- What the workers have sent between them when each has made all its attempts. -/
theorem sharesSince_run (ranges : settings.map WorkerSettings.range = NonceRange.partition workers)
    (alike : ∀ each ∈ settings, each.rolls = rolls)
    (gains : ∀ index each, settings[index]? = some each →
      (Worker.run each (eventsOf index history)).2.Gains each work
        (Worker.run each (eventsOf index events)).2) :
    sharesSince (run settings history) (run settings events) =
      ((work.allAttempts workers (rolls + 1)).filter work.hits).map work.share := by
  have parts : List.zipWith (fun old new => old.2.sharesSince new.2) (run settings history)
      (run settings events) = settings.map fun each =>
        ((work.passes each.range (rolls + 1)).filter work.hits).map work.share := by
    apply zipWith_run
    intro index each its
    rw [(gains index each its).sharesSince_eq, WorkerSettings.attempts,
      alike each (List.mem_of_getElem? its)]
  rw [sharesSince, parts, ← List.flatMap_def, Work.allAttempts, ← ranges, List.flatMap_map,
    List.filter_flatMap, List.map_flatMap]

theorem hashesSince_run (positive : 0 < workers)
    (ranges : settings.map WorkerSettings.range = NonceRange.partition workers)
    (alike : ∀ each ∈ settings, each.rolls = rolls)
    (gains : ∀ index each, settings[index]? = some each →
      (Worker.run each (eventsOf index history)).2.Gains each work
        (Worker.run each (eventsOf index events)).2) :
    hashesSince (run settings history) (run settings events) = nonceSpace * (rolls + 1) := by
  have parts : List.zipWith (fun old new => old.2.hashesSince new.2) (run settings history)
      (run settings events) = settings.map fun each => (rolls + 1) * each.range.nonces.length := by
    apply zipWith_run
    intro index each its
    rw [(gains index each its).hashesSince_eq, alike each (List.mem_of_getElem? its)]
  have all := congrArg List.length (NonceRange.flatMap_nonces_partition positive)
  rw [← ranges, List.length_flatMap, List.map_map, List.length_range] at all
  rw [hashesSince, parts, List.sum_map_mul_left, Nat.mul_comm, ← all]
  rfl

end Ranges

/-- Workers with the ranges of a partition, at rest, that get the same valid work and are left alone
with it for long enough, in whatever order they make their steps: they all come to rest, and between
them they have hashed every nonce once with each time, and sent the shares of just those attempts
that hit, one for each.  At what level each of them hashes does not matter. -/
theorem run_searches_space_once {workers : Nat} (positive : 0 < workers)
    (ranges : settings.map WorkerSettings.range = NonceRange.partition workers) {rolling : Bool}
    (alike : ∀ each ∈ settings, each.rollNtime = rolling)
    (idle : ∀ member ∈ run settings history, member.1.isIdle = true)
    (named : work.job.id ≠ "") (target : work.target.isZero = false) (epoch : UInt64) :
    ∃ enough, ∀ events, AllAlone settings work epoch enough events →
      let before := run settings history
      let after := run settings (history ++ events)
      let rolls := if rolling then maxNtimeRolls else 0
      (∀ member ∈ after, member.1.isIdle = true) ∧
        (∀ (index : Nat) (old new : Worker.Recorded), before[index]? = some old →
          after[index]? = some new → old.2.sent <+: new.2.sent) ∧
        sharesSince before after =
          ((work.allAttempts workers (rolls + 1)).filter work.hits).map work.share ∧
        (∀ roll ≤ rolls, ∀ nonce, work.hits (work.attemptAt roll nonce) = true →
          ((sharesSince before after).map Share.attempt).count (work.attemptAt roll nonce) = 1) ∧
        (∀ share ∈ sharesSince before after, ∃ roll ≤ rolls, ∃ nonce,
          work.hits (work.attemptAt roll nonce) = true ∧
            share = work.share (work.attemptAt roll nonce)) ∧
        hashesSince before after = nonceSpace * (rolls + 1) := by
  have valid : work.validate = .ok () := by
    rw [Work.validate, if_neg named, target]
    rfl
  obtain ⟨enough, sweeps⟩ := run_sweeps idle valid epoch
  refine ⟨enough, ?_⟩
  intro events allAlone before after rolls
  have behind := sweeps events allAlone
  have gains index each its := (behind index each its).2
  have rolls_eq : ∀ each ∈ settings, each.rolls = rolls := by
    intro each member
    rw [WorkerSettings.rolls, alike each member]
  have few : rolls + 1 ≤ UInt32.size := by
    simp only [rolls]
    split <;> decide
  have shares : sharesSince before after =
      ((work.allAttempts workers (rolls + 1)).filter work.hits).map work.share :=
    sharesSince_run ranges rolls_eq gains
  refine ⟨?_, ?_, shares, ?_, ?_, hashesSince_run positive ranges rolls_eq gains⟩
  · intro member inTeam
    obtain ⟨index, its⟩ := List.getElem?_of_mem inTeam
    rw [getElem?_run, Option.map_eq_some_iff] at its
    obtain ⟨each, its, rfl⟩ := its
    exact (behind index each its).1
  · intro index old new itsOld itsNew
    simp only [before, after, getElem?_run, Option.map_eq_some_iff] at itsOld itsNew
    obtain ⟨each, its, rfl⟩ := itsOld
    obtain ⟨_, itsToo, rfl⟩ := itsNew
    obtain rfl := Option.some.inj (its.symm.trans itsToo)
    rw [(gains index each its).sent]
    exact List.prefix_append _ _
  · intro roll atMost nonce hit
    rw [shares]
    exact Work.count_shares positive (Nat.lt_succ_of_le atMost) few hit
  · intro share member
    simp only [shares, List.mem_map, List.mem_filter] at member
    obtain ⟨attempt, ⟨made, hit⟩, rfl⟩ := member
    obtain ⟨roll, inside, nonce, rfl⟩ := Work.mem_allAttempts made
    exact ⟨roll, Nat.le_of_lt_succ inside, nonce, hit, rfl⟩

/-- Work with a given root, which almost every digest meets. -/
def sampleWork : Work :=
  { job :=
      { id := "7", prevHash := .replicate 32 0, coinbase1 := [], coinbase2 := [], branches := []
        version := 0x20000000, nbits := 0x1d00ffff, ntime := 0xffffffff, clean := true }
    source := .fixed (.replicate 32 0), target := ⟨.replicate 32 255⟩ }

/-- Two workers of different levels, each with half of the nonces. -/
def samplePair : List WorkerSettings :=
  List.zipWith
    (fun range level =>
      { name := "miner", range, hasher := ⟨level, level⟩, rollNtime := true })
    (NonceRange.partition 2) [.scalar, .wide8]

/-- The two work one after the other. -/
def sampleTurns (enough : Nat) : List (Nat × WorkerEvent) :=
  (Worker.alone sampleWork 3 0 enough).map (fun event => (0, event)) ++
    (Worker.alone sampleWork 3 0 enough).map fun event => (1, event)

theorem allAlone_sampleTurns (enough : Nat) :
    AllAlone samplePair sampleWork 3 enough (sampleTurns enough) := by
  intro index inside
  have pair : samplePair.length = 2 := by decide +kernel
  refine ⟨0, enough, Nat.le_refl _, ?_⟩
  rw [pair] at inside
  interval_cases index <;> simp [eventsOf, sampleTurns, List.filterMap_map]

/-- Two workers that roll the time make all attempts, though the clock comes round on the way. -/
theorem run_searches_space_once_sample :
    ∃ events, AllAlone samplePair sampleWork 3 0 events ∧
      (∀ member ∈ run samplePair events, member.1.isIdle = true) ∧
      hashesSince (run samplePair []) (run samplePair events) = nonceSpace * 601 := by
  obtain ⟨enough, sweeps⟩ := run_searches_space_once (by decide : 0 < 2)
    (by decide +kernel : samplePair.map WorkerSettings.range = NonceRange.partition 2)
    (by decide +kernel : ∀ each ∈ samplePair, each.rollNtime = true)
    (by decide +kernel : ∀ member ∈ run samplePair [], member.1.isIdle = true)
    (by decide +kernel : sampleWork.job.id ≠ "")
    (by decide +kernel : sampleWork.target.isZero = false) 3
  obtain ⟨idle, -, -, -, -, hashes⟩ := sweeps _ (allAlone_sampleTurns enough)
  refine ⟨sampleTurns enough, ?_, idle, hashes⟩
  intro index inside
  obtain ⟨waits, count, -, alone⟩ := allAlone_sampleTurns enough index inside
  exact ⟨waits, count, Nat.zero_le count, alone⟩

end Team

end StratumMiner
