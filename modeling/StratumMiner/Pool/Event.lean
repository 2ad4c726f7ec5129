import StratumMiner.Duration
import StratumMiner.Mining.Work
import StratumMiner.Pool.Subscription

/-!
# Events on the way from the pool

What the rest of the miner learns of the conversation with a pool.
-/

namespace StratumMiner

/-- Something that happened in the conversation with the pool. -/
inductive PoolEvent where
  | subscribed (subscription : Subscription)
  | authorized
  | newJob (job : Job)
  | difficultyChanged (difficulty : PoolDifficulty)
  | extranonceChanged (subscription : Subscription)
  | shareAccepted (jobId : String) (nonce : UInt32) (latency : Duration)
  | shareRejected (jobId : String) (nonce : UInt32) (reason : String) (latency : Duration)
  | disconnected
  deriving Repr, DecidableEq

end StratumMiner
