import StratumMiner.Number.Double

/-!
# Lengths of time

A duration is a whole number of nanoseconds with fewer than `2 ^ 64` whole seconds. A sum past that
bound has no duration, which is the one way the arithmetic here can fail.
-/

namespace StratumMiner

/-- A length of time in nanoseconds. -/
structure Duration where
  nanoseconds : Nat
  bounded : nanoseconds < UInt64.size * 1000000000
  deriving Repr, DecidableEq

namespace Duration

/-- The duration of a number of nanoseconds, if it is in bounds. -/
def ofNanoseconds? (nanoseconds : Nat) : Option Duration :=
  if bounded : nanoseconds < UInt64.size * 1000000000 then some ⟨nanoseconds, bounded⟩ else none

/-- The longest duration. -/
def longest : Duration :=
  ⟨UInt64.size * 1000000000 - 1, by decide⟩

/-- The duration of a number of nanoseconds, cut off at the longest. -/
def clamp (nanoseconds : Nat) : Duration :=
  (ofNanoseconds? nanoseconds).getD longest

/-- No time at all. -/
def zero : Duration :=
  ⟨0, by decide⟩

/-- The whole seconds. -/
def seconds (duration : Duration) : Nat :=
  duration.nanoseconds / 1000000000

/-- The nanoseconds after the last whole second. -/
def subsecond (duration : Duration) : Nat :=
  duration.nanoseconds % 1000000000

/-- The whole milliseconds. -/
def milliseconds (duration : Duration) : Nat :=
  duration.nanoseconds / 1000000

/-- The sum of several durations, if it is in bounds. -/
def sum? (durations : List Duration) : Option Duration :=
  ofNanoseconds? (durations.foldl (fun total duration => total + duration.nanoseconds) 0)

/-- An equal share of a duration, rounded down. -/
def share (duration : Duration) (count : Nat) : Duration :=
  ⟨duration.nanoseconds / count,
    Nat.lt_of_le_of_lt (Nat.div_le_self _ _) duration.bounded⟩

/-- The length in seconds as a double: whole seconds and fraction are rounded, then their sum. -/
def toDouble (duration : Duration) : Double :=
  (Double.ofNat duration.seconds).add
    ((Double.ofNat duration.subsecond).div (Double.ofNat 1000000000))

end Duration

end StratumMiner
