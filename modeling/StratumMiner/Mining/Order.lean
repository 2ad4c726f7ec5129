import StratumMiner.Mining.Work

/-!
# Orders for workers

Work is issued under an epoch. The epoch of the miner moves on whenever earlier work becomes
worthless, and a worker drops work of another epoch.
-/

namespace StratumMiner

/-- What a worker can be told. -/
inductive Order where
  /-- Search this work, as long as the epoch is this one. -/
  | assign (work : Work) (epoch : UInt64)
  /-- Stop searching. -/
  | idle
  /-- Stop altogether. -/
  | shutdown
  deriving Repr, DecidableEq

end StratumMiner
