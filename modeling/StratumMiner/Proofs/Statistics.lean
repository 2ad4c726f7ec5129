import Mathlib
import StratumMiner.Statistics
import StratumMiner.Proofs.Duration
import StratumMiner.Proofs.Window

/-!
# The mean of the latest answer times

Whatever the parts of a miner ask of their statistics, and in whatever order, the window holds the
latest answer times that have been put into it.  Reading leaves it and the counters as they are.  A
reader fails when the sum of the window is no duration; it breaks the lock then, so that the window
stays as it was, and all later readers fail for the same sum.  Otherwise the mean is exact.
-/

namespace StratumMiner

open Duration (total wholeSeconds leftover)

namespace Statistics

variable {statistics : Statistics}

/-- The window goes on to hold the latest answer times. -/
theorem latencies_addLatency {latencies : List Duration} (latency : Duration)
    (kept : statistics.latencies = latencies.rtake windowLength) :
    (statistics.addLatency latency).latencies = (latencies ++ [latency]).rtake windowLength := by
  rw [addLatency, kept]
  exact rtake_make_room _ _ (by decide)

/-- The mean by the cases of the window: there is none, its sum is no duration, or the sum is shared
out. -/
theorem average_cases (statistics : Statistics) :
    (statistics.latencies = [] ∧ statistics.average = .none) ∨
      (statistics.latencies ≠ [] ∧ UInt64.size ≤ wholeSeconds statistics.latencies ∧
        statistics.average = .overflow) ∨
      (statistics.latencies ≠ [] ∧ wholeSeconds statistics.latencies < UInt64.size ∧
        ∃ sum : Duration, sum.nanoseconds = total statistics.latencies ∧
          statistics.average = .mean (sum.share statistics.latencies.length)) := by
  cases window : statistics.latencies with
  | nil =>
      left
      exact ⟨rfl, by rw [average, window]; rfl⟩
  | cons latency latencies =>
      right
      have several : (latency :: latencies).isEmpty = false := rfl
      cases isSum : Duration.sum? (latency :: latencies) with
      | none =>
          left
          refine ⟨List.cons_ne_nil _ _, (Duration.sum?_eq_none_iff _).mp isSum, ?_⟩
          rw [average, window, several, isSum]
          rfl
      | some sum =>
          right
          have few := mt (Duration.sum?_eq_none_iff _).mpr (by rw [isSum]; simp)
          refine ⟨List.cons_ne_nil _ _, Nat.lt_of_not_le few, sum,
            Duration.nanoseconds_of_sum? _ isSum, ?_⟩
          rw [average, window, several, isSum]
          rfl

end Statistics

namespace SharedStatistics

namespace Call

/-- The answer time that a call puts into the window. -/
def latency? : Call → Option Duration
  | .accepted latency | .rejected latency => some latency
  | .submitted | .stale | .hashes _ | .average | .snapshot => none

/-- Whether a call only reads. -/
def reads : Call → Bool
  | .average | .snapshot => true
  | .submitted | .accepted _ | .rejected _ | .stale | .hashes _ => false

theorem latency?_of_reads {call : Call} (reads : call.reads = true) : call.latency? = none := by
  cases call with
  | average | snapshot => rfl
  | _ => cases reads

end Call

/-! ## One call -/

/-- The sum of the window is no duration. -/
def TooLong (shared : SharedStatistics) : Prop :=
  UInt64.size ≤ wholeSeconds shared.statistics.latencies

variable {shared : SharedStatistics} {call : Call}

theorem average_of_fails (fails : shared.broken = true ∨ shared.TooLong) :
    shared.average = ({ shared with broken := true }, .failed) := by
  obtain ⟨statistics, broken⟩ := shared
  cases broken with
  | true => rfl
  | false =>
      have tooLong : UInt64.size ≤ wholeSeconds statistics.latencies := by
        simpa [TooLong] using fails
      rcases statistics.average_cases with ⟨empty, -⟩ | ⟨-, -, average⟩ | ⟨-, fits, -⟩
      · rw [empty] at tooLong
        exact absurd tooLong (by decide)
      · simp only [SharedStatistics.average, average]
        rfl
      · exact absurd tooLong (Nat.not_le_of_lt fits)

theorem average_of_intact (intact : shared.broken = false) (fits : ¬shared.TooLong) :
    ∃ mean, shared.average = (shared, .average mean) := by
  obtain ⟨statistics, broken⟩ := shared
  subst intact
  rcases statistics.average_cases with
    ⟨-, average⟩ | ⟨-, tooLong, -⟩ | ⟨-, -, sum, -, average⟩
  · exact ⟨none, by simp only [SharedStatistics.average, average]; rfl⟩
  · exact absurd tooLong fits
  · exact ⟨_, by simp only [SharedStatistics.average, average]; rfl⟩

/-- A reader leaves the counters and the window as they are.  It fails if the lock is broken or the
sum of the window is no duration, and the lock is broken then. -/
theorem serve_of_reads (shared : SharedStatistics) (reads : call.reads = true) :
    (shared.serve call).1.statistics = shared.statistics ∧
      ((shared.serve call).1.broken = true ↔ shared.broken = true ∨ shared.TooLong) ∧
      ((shared.serve call).2 = .failed ↔ shared.broken = true ∨ shared.TooLong) := by
  by_cases fails : shared.broken = true ∨ shared.TooLong
  · have average := average_of_fails fails
    cases call with
    | average => simp [serve, average, fails]
    | snapshot => simp [serve, snapshot, average, fails]
    | _ => cases reads
  · obtain ⟨whole, fits⟩ := not_or.mp fails
    have intact : shared.broken = false := by simpa using whole
    obtain ⟨mean, average⟩ := average_of_intact intact fits
    cases call with
    | average => simp [serve, average, intact, fits]
    | snapshot => simp [serve, snapshot, average, intact, fits]
    | _ => cases reads

/-- A call that does not read leaves the lock as it is.  If the lock is broken then the window stays
the same, and otherwise the call ends well with its answer time in the window. -/
theorem serve_of_not_reads (shared : SharedStatistics) (updates : call.reads = false) :
    (shared.serve call).1.broken = shared.broken ∧
      (shared.broken = true →
        (shared.serve call).1.statistics.latencies = shared.statistics.latencies) ∧
      (shared.broken = false → (shared.serve call).2 = .done ∧
        (shared.serve call).1.statistics.latencies =
          (call.latency?.elim shared.statistics shared.statistics.addLatency).latencies) := by
  obtain ⟨statistics, broken⟩ := shared
  cases call with
  | submitted | stale | hashes count => exact ⟨rfl, fun _ => rfl, fun _ => ⟨rfl, rfl⟩⟩
  | accepted latency | rejected latency =>
      cases broken with
      | true => exact ⟨rfl, fun _ => rfl, nofun⟩
      | false => exact ⟨rfl, nofun, fun _ => ⟨rfl, rfl⟩⟩
  | average | snapshot => cases updates

/-- What a reader is told of a window: nothing of an empty one, and otherwise the exact mean,
rounded down to nanoseconds, unless the sum has too many whole seconds.  The mean comes out the same
if the seconds are shared first and those that are left are broken up. -/
structure Averages (window : List Duration) (reply : Reply) : Prop where
  none_iff : reply = .average none ↔ window = []
  failed_iff : reply = .failed ↔ UInt64.size ≤ total window / 1000000000
  mean_iff : ∀ mean, reply = .average (some mean) ↔
    window ≠ [] ∧ total window / 1000000000 < UInt64.size ∧
      mean.nanoseconds = total window / window.length
  between : ∀ mean, reply = .average (some mean) →
    ∃ shortest ∈ window, ∃ longest ∈ window,
      (∀ latency ∈ window, shortest.nanoseconds ≤ latency.nanoseconds ∧
        latency.nanoseconds ≤ longest.nanoseconds) ∧
      shortest.nanoseconds ≤ mean.nanoseconds ∧ mean.nanoseconds ≤ longest.nanoseconds
  carried : ∀ mean, reply = .average (some mean) →
    mean.seconds = wholeSeconds window / window.length ∧
      mean.subsecond = leftover window / window.length +
        (wholeSeconds window % window.length * 1000000000 + leftover window % window.length) /
          window.length

namespace Averages

variable {window : List Duration}

theorem of_nil : Averages [] (.average none) where
  none_iff := iff_of_true rfl rfl
  failed_iff := iff_of_false nofun (by decide)
  mean_iff mean := iff_of_false nofun fun claimed => claimed.1 rfl
  between := nofun
  carried := nofun

theorem of_tooLong (tooLong : UInt64.size ≤ wholeSeconds window) : Averages window .failed where
  none_iff := by
    refine iff_of_false nofun ?_
    rintro rfl
    exact absurd tooLong (by decide)
  failed_iff := iff_of_true rfl (Duration.total_div window ▸ tooLong)
  mean_iff mean := by
    rw [Duration.total_div]
    exact iff_of_false nofun fun claimed => absurd tooLong (Nat.not_le_of_lt claimed.2.1)
  between := nofun
  carried := nofun

theorem of_sum {sum : Duration} (several : window ≠ []) (fits : wholeSeconds window < UInt64.size)
    (isSum : sum.nanoseconds = total window) :
    Averages window (.average (some (sum.share window.length))) where
  none_iff := iff_of_false nofun several
  failed_iff := by
    rw [Duration.total_div]
    exact iff_of_false nofun (Nat.not_le_of_lt fits)
  mean_iff mean := by
    have share : (sum.share window.length).nanoseconds = total window / window.length := by
      rw [Duration.nanoseconds_share, isSum]
    rw [Duration.total_div]
    constructor
    · intro isMean
      cases isMean
      exact ⟨several, fits, share⟩
    · rintro ⟨-, -, isMean⟩
      obtain ⟨nanoseconds, bounded⟩ := mean
      cases isMean.trans share.symm
      rfl
  between mean isMean := by
    cases isMean
    rw [Duration.nanoseconds_share, isSum]
    exact Duration.mean_between window several
  carried mean isMean := by
    cases isMean
    have seconds : sum.seconds = wholeSeconds window := by
      rw [Duration.seconds, isSum, Duration.total_div]
    have subsecond : sum.subsecond = leftover window := by
      rw [Duration.subsecond, isSum, Duration.total_mod]
    rw [Duration.seconds_share, Duration.subsecond_share _ _ (List.length_pos_iff.mpr several),
      seconds, subsecond]
    exact ⟨rfl, rfl⟩

end Averages

/-- A lock is broken for a sum that is no duration only, so the window alone decides what a reader
is told. -/
theorem averages_of_frozen (frozen : shared.broken = true → shared.TooLong) :
    Averages shared.statistics.latencies shared.average.2 := by
  by_cases tooLong : shared.TooLong
  · rw [average_of_fails (.inr tooLong)]
    exact .of_tooLong tooLong
  · obtain ⟨statistics, broken⟩ := shared
    have intact : broken = false := by simpa using mt frozen tooLong
    subst intact
    rcases statistics.average_cases with
      ⟨empty, average⟩ | ⟨-, overflow, -⟩ | ⟨several, fits, sum, isSum, average⟩
    · simp only [SharedStatistics.average, average, empty]
      exact .of_nil
    · exact absurd overflow tooLong
    · simp only [SharedStatistics.average, average]
      exact .of_sum several fits isSum

/-! ## Many calls -/

/-- The statistics behind calls, from the start. -/
def run (calls : List Call) : SharedStatistics :=
  calls.foldl (fun shared call => (shared.serve call).1) {}

/-- No call fails. -/
def Smooth (calls : List Call) : Prop :=
  ∀ earlier call, earlier ++ [call] <+: calls → ((run earlier).serve call).2 ≠ .failed

variable {calls : List Call}

theorem run_concat : run (calls ++ [call]) = ((run calls).serve call).1 := by
  rw [run, List.foldl_concat, ← run]

/-- Who has broken the lock is a reader that failed. -/
theorem exists_reader_of_broken (broken : (run calls).broken = true) :
    ∃ earlier call, earlier ++ [call] <+: calls ∧ call.reads = true ∧
      ((run earlier).serve call).2 = .failed := by
  induction calls using List.reverseRecOn with
  | nil => cases broken
  | append_singleton calls call ih =>
      have further (already : (run calls).broken = true) :
          ∃ earlier other, earlier ++ [other] <+: calls ++ [call] ∧ other.reads = true ∧
            ((run earlier).serve other).2 = .failed := by
        obtain ⟨earlier, other, begins, failed⟩ := ih already
        exact ⟨earlier, other, begins.trans (List.prefix_append _ _), failed⟩
      rw [run_concat] at broken
      cases reads : call.reads with
      | true =>
          obtain ⟨-, breaks, failed⟩ := serve_of_reads (run calls) reads
          rcases breaks.mp broken with already | tooLong
          · exact further already
          · exact ⟨calls, call, List.prefix_refl _, reads, failed.mpr (.inr tooLong)⟩
      | false =>
          rw [(serve_of_not_reads (run calls) reads).1] at broken
          exact further broken

theorem intact_of_smooth (smooth : Smooth calls) : (run calls).broken = false := by
  rw [← Bool.not_eq_true]
  intro broken
  obtain ⟨earlier, call, begins, -, failed⟩ := exists_reader_of_broken broken
  exact smooth earlier call begins failed

/-- Calls that do not read never fail, since nobody breaks the lock. -/
theorem smooth_of_not_reads (updates : ∀ call ∈ calls, call.reads = false) : Smooth calls := by
  intro earlier call begins
  have intact : (run earlier).broken = false := by
    rw [← Bool.not_eq_true]
    intro broken
    obtain ⟨first, reader, before, reads, -⟩ := exists_reader_of_broken broken
    have among : reader ∈ calls :=
      begins.subset (List.mem_append_left _ (before.subset (by simp)))
    rw [updates reader among] at reads
    cases reads
  have update := updates call (begins.subset (by simp))
  rw [((serve_of_not_reads (run earlier) update).2.2 intact).1]
  nofun

/-- While the lock is whole, the window holds the latest of the answer times.  It is broken for a
sum that is no duration, and the window stays that way. -/
structure Sound (calls : List Call) (shared : SharedStatistics) : Prop where
  window : shared.broken = false → shared.statistics.latencies =
    (calls.filterMap Call.latency?).rtake Statistics.windowLength
  frozen : shared.broken = true → shared.TooLong

theorem Sound.serve (sound : Sound calls shared) (call : Call) :
    Sound (calls ++ [call]) (shared.serve call).1 := by
  have times : (calls ++ [call]).filterMap Call.latency? =
      calls.filterMap Call.latency? ++ call.latency?.toList := by
    cases isTime : call.latency? <;> simp [isTime]
  cases reads : call.reads with
  | true =>
      obtain ⟨same, breaks, -⟩ := serve_of_reads shared reads
      constructor
      · intro intact
        have before : shared.broken = false := by
          rw [← Bool.not_eq_true] at intact ⊢
          exact fun already => intact (breaks.mpr (.inl already))
        rw [same, sound.window before, times, Call.latency?_of_reads reads, Option.toList_none,
          List.append_nil]
      · intro broken
        rw [TooLong, same]
        exact (breaks.mp broken).elim sound.frozen id
  | false =>
      obtain ⟨kept, frozen, whole⟩ := serve_of_not_reads shared reads
      constructor
      · intro intact
        rw [kept] at intact
        rw [(whole intact).2, times]
        cases call.latency? with
        | none => simpa using sound.window intact
        | some latency => exact Statistics.latencies_addLatency latency (sound.window intact)
      · intro broken
        rw [kept] at broken
        rw [TooLong, frozen broken]
        exact sound.frozen broken

theorem run_sound (calls : List Call) : Sound calls (run calls) := by
  induction calls using List.reverseRecOn with
  | nil => exact ⟨fun _ => rfl, nofun⟩
  | append_singleton calls call ih =>
      rw [run_concat]
      exact ih.serve call

/-- Whatever the calls are, a reader is told the mean of the window and changes neither the window
nor a counter.  The window holds the latest answer times in their order, unless a reader has failed;
and if nobody has read, nobody has failed. -/
theorem run_averages_latest (calls : List Call) :
    ((∀ call ∈ calls, call.reads = false) → Smooth calls) ∧
      (Smooth calls → (run calls).statistics.latencies =
        (calls.filterMap Call.latency?).rtake Statistics.windowLength) ∧
      Averages (run calls).statistics.latencies ((run calls).serve .average).2 ∧
      ∀ call, call.reads = true →
        ((run calls).serve call).1.statistics = (run calls).statistics := by
  have sound := run_sound calls
  refine ⟨smooth_of_not_reads, ?_, averages_of_frozen sound.frozen, ?_⟩
  · intro smooth
    exact sound.window (intact_of_smooth smooth)
  · intro call reads
    exact (serve_of_reads (run calls) reads).1

/-- Sixty-five shares are handed in and accepted after so many seconds each. -/
def sampleCalls : List Call :=
  (List.range 65).flatMap fun before =>
    [.submitted, .accepted (Duration.clamp ((before + 1) * 1000000000))]

/-- The first of the answer times is forgotten, and half a second is left of the mean. -/
theorem run_averages_latest_sample :
    (∀ call ∈ sampleCalls, call.reads = false) ∧
      (run sampleCalls).statistics.latencies =
        (List.range' 2 64).map (fun second => Duration.clamp (second * 1000000000)) ∧
      ((run sampleCalls).serve .average).2 = .average (some (Duration.clamp 33500000000)) := by
  have updates : ∀ call ∈ sampleCalls, call.reads = false := by decide +kernel
  obtain ⟨smooth, window, averages, -⟩ := run_averages_latest sampleCalls
  have latest : (run sampleCalls).statistics.latencies =
      (List.range' 2 64).map fun second => Duration.clamp (second * 1000000000) := by
    rw [window (smooth updates)]
    decide +kernel
  refine ⟨updates, latest, (averages.mean_iff _).mpr ?_⟩
  rw [latest]
  decide +kernel

/-- A reader fails when two answer times are no duration together. -/
example : ((run [.accepted .longest, .rejected .longest]).serve .average).2 = .failed := by decide

end SharedStatistics

end StratumMiner
