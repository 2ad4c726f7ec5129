import Mathlib
import StratumMiner.Duration

/-!
# Sums and shares of durations

A sum of durations is exact, and there is none just when it has too many whole seconds.  Seconds and
nanoseconds may be summed apart if the seconds that the nanoseconds make up are carried over, and
shared apart if the seconds that are left are broken up into nanoseconds.
-/

namespace StratumMiner.Duration

/-- The sum of durations in nanoseconds. -/
def total (durations : List Duration) : Nat :=
  (durations.map nanoseconds).sum

/-- The whole seconds of a sum: those of each duration, and those that the nanoseconds behind them
make up. -/
def wholeSeconds (durations : List Duration) : Nat :=
  (durations.map seconds).sum + (durations.map subsecond).sum / 1000000000

/-- The nanoseconds of a sum that make up no whole second. -/
def leftover (durations : List Duration) : Nat :=
  (durations.map subsecond).sum % 1000000000

variable (durations : List Duration)

theorem total_eq_carried :
    total durations = wholeSeconds durations * 1000000000 + leftover durations := by
  have apart : total durations =
      (durations.map seconds).sum * 1000000000 + (durations.map subsecond).sum := by
    induction durations with
    | nil => rfl
    | cons duration durations ih =>
        have parts : duration.nanoseconds =
            duration.seconds * 1000000000 + duration.subsecond :=
          (Nat.div_add_mod' _ _).symm
        simp only [total, List.map_cons, List.sum_cons] at ih ⊢
        omega
  rw [apart, wholeSeconds, leftover, Nat.add_mul, Nat.add_assoc, Nat.div_add_mod']

theorem leftover_lt : leftover durations < 1000000000 :=
  Nat.mod_lt _ (by decide)

theorem total_div : total durations / 1000000000 = wholeSeconds durations := by
  have carried := total_eq_carried durations
  have few := leftover_lt durations
  omega

theorem total_mod : total durations % 1000000000 = leftover durations := by
  have carried := total_eq_carried durations
  have few := leftover_lt durations
  omega

theorem sum?_eq : sum? durations = ofNanoseconds? (total durations) := by
  rw [sum?, total, List.sum_eq_foldl, List.foldl_map]

/-- There is no sum just when its whole seconds do not fit. -/
theorem sum?_eq_none_iff : sum? durations = none ↔ UInt64.size ≤ wholeSeconds durations := by
  rw [sum?_eq, ← total_div, Nat.le_div_iff_mul_le (by decide), ofNanoseconds?]
  split
  · next fits => exact iff_of_false (by simp) (by omega)
  · next tooLong => exact iff_of_true rfl (by omega)

theorem nanoseconds_of_sum? {sum : Duration} (isSum : sum? durations = some sum) :
    sum.nanoseconds = total durations := by
  rw [sum?_eq, ofNanoseconds?] at isSum
  split at isSum
  · cases isSum
    rfl
  · cases isSum

section Share

variable (duration : Duration) (count : Nat)

theorem nanoseconds_share : (duration.share count).nanoseconds = duration.nanoseconds / count :=
  rfl

/-- The seconds are shared by themselves. -/
theorem seconds_share : (duration.share count).seconds = duration.seconds / count := by
  rw [seconds, share, seconds, Nat.div_div_eq_div_mul, Nat.div_div_eq_div_mul, Nat.mul_comm]

/-- The seconds that are left are broken up and shared with the nanoseconds that are left. -/
theorem subsecond_share (positive : 0 < count) :
    (duration.share count).subsecond =
      duration.subsecond / count +
        (duration.seconds % count * 1000000000 + duration.subsecond % count) / count := by
  have few : duration.subsecond < 1000000000 := Nat.mod_lt _ (by decide)
  have rest : duration.seconds % count * 1000000000 + duration.subsecond <
      count * 1000000000 := by
    have below : (duration.seconds % count + 1) * 1000000000 ≤ count * 1000000000 :=
      Nat.mul_le_mul_right _ (Nat.mod_lt _ positive)
    omega
  have parts : duration.nanoseconds =
      count * (duration.seconds / count * 1000000000) +
        (duration.seconds % count * 1000000000 + duration.subsecond) := by
    calc duration.nanoseconds
        = duration.seconds * 1000000000 + duration.subsecond := (Nat.div_add_mod' _ _).symm
      _ = (count * (duration.seconds / count) + duration.seconds % count) * 1000000000 +
            duration.subsecond := by rw [Nat.div_add_mod]
      _ = count * (duration.seconds / count * 1000000000) +
            (duration.seconds % count * 1000000000 + duration.subsecond) := by
          rw [Nat.add_mul, Nat.mul_assoc, Nat.add_assoc]
  calc (duration.share count).subsecond
      = (duration.seconds / count * 1000000000 +
          (duration.seconds % count * 1000000000 + duration.subsecond) / count) % 1000000000 := by
        rw [subsecond, nanoseconds_share, parts, Nat.mul_add_div positive]
    _ = (duration.seconds % count * 1000000000 + duration.subsecond) / count := by
        exact Nat.mul_add_mod_of_lt (Nat.div_lt_of_lt_mul rest)
    _ = duration.subsecond / count +
          (duration.seconds % count * 1000000000 + duration.subsecond % count) / count := by
        conv_lhs => rw [← Nat.mod_add_div duration.subsecond count]
        rw [← Nat.add_assoc, Nat.add_mul_div_left _ _ positive, Nat.add_comm]

end Share

/-- The mean of several durations lies between the shortest and the longest of them. -/
theorem mean_between (several : durations ≠ []) :
    ∃ shortest ∈ durations, ∃ longest ∈ durations,
      (∀ duration ∈ durations, shortest.nanoseconds ≤ duration.nanoseconds ∧
        duration.nanoseconds ≤ longest.nanoseconds) ∧
      shortest.nanoseconds ≤ total durations / durations.length ∧
      total durations / durations.length ≤ longest.nanoseconds := by
  have inhabited : durations.toFinset.Nonempty :=
    (List.toFinset_nonempty_iff durations).mpr several
  have positive : 0 < durations.length := List.length_pos_iff.mpr several
  obtain ⟨shortest, isShortest, least⟩ :=
    durations.toFinset.exists_min_image nanoseconds inhabited
  obtain ⟨longest, isLongest, greatest⟩ :=
    durations.toFinset.exists_max_image nanoseconds inhabited
  simp only [List.mem_toFinset] at isShortest isLongest least greatest
  refine ⟨shortest, isShortest, longest, isLongest, ?_, ?_, ?_⟩
  · intro duration member
    exact ⟨least duration member, greatest duration member⟩
  · have atLeast := List.card_nsmul_le_sum (durations.map nanoseconds) shortest.nanoseconds
      (List.forall_mem_map.mpr least)
    rw [List.length_map, smul_eq_mul, Nat.mul_comm] at atLeast
    exact (Nat.le_div_iff_mul_le positive).mpr atLeast
  · have atMost := List.sum_le_card_nsmul (durations.map nanoseconds) longest.nanoseconds
      (List.forall_mem_map.mpr greatest)
    rw [List.length_map, smul_eq_mul] at atMost
    exact Nat.div_le_of_le_mul atMost

end StratumMiner.Duration
