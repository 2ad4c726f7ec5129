import StratumMiner.Duration
import StratumMiner.Number.Style

/-!
# Hash rates

A rate is a whole number of hashes per second. It is shown in the largest of four units that it
reaches, with two places after the point except for plain hashes.
-/

namespace StratumMiner

/-- Hashes per second. -/
structure HashRate where
  perSecond : UInt64
  deriving Repr, DecidableEq

namespace HashRate

/-- The rate of a number of hashes over a time, cut off to a whole number; zero over no time. -/
def ofHashes (hashes : UInt64) (elapsed : Duration) : HashRate :=
  let seconds := elapsed.toDouble
  if seconds.isZero then ⟨0⟩
  else
    let rate := (Double.ofNat hashes.toNat).div seconds
    ⟨if rate.isFinite then UInt64.ofNat (min rate.floor (UInt64.size - 1)) else 0xffffffffffffffff⟩

/-- The rate in units of so many hashes per second. -/
def inUnits (rate : HashRate) (unit : Nat) : Double :=
  (Double.ofNat rate.perSecond.toNat).div (Double.ofNat unit)

/-- The rate in the largest unit it reaches. -/
def display (rate : HashRate) : String :=
  let value := rate.perSecond.toNat
  if 1000000000 ≤ value then (rate.inUnits 1000000000).writeFixed 2 ++ " GH/s"
  else if 1000000 ≤ value then (rate.inUnits 1000000).writeFixed 2 ++ " MH/s"
  else if 1000 ≤ value then (rate.inUnits 1000).writeFixed 2 ++ " kH/s"
  else toString value ++ " H/s"

end HashRate

end StratumMiner
