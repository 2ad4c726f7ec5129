import StratumMiner.Difficulty
import StratumMiner.Mining.Extranonce
import StratumMiner.Mining.Header
import StratumMiner.Mining.Merkle

/-!
# Jobs, work and shares

A job is what the pool announces. Work is a job together with a way to its Merkle root and the
target that shares must meet; it can be mined if the job has an id and the target is not zero. A
share is a nonce whose header digest met the target.
-/

namespace StratumMiner

/-- A unit of work as announced by the pool. -/
structure Job where
  id : String
  /-- The hash of the previous block, in the order of the header's bytes. -/
  prevHash : Bytes32
  coinbase1 : Bytes
  coinbase2 : Bytes
  /-- The right neighbours on the way from the coinbase to the Merkle root. -/
  branches : List Bytes32
  version : UInt32
  nbits : UInt32
  ntime : UInt32
  /-- Whether work on earlier jobs is worthless from now on. -/
  clean : Bool
  deriving Repr, DecidableEq

/-- Where the Merkle root of work comes from. -/
inductive RootSource where
  /-- The root is given, in the order of the header's bytes. -/
  | fixed (root : Bytes32)
  /-- The root is built from the coinbase of the job with these extranonces. -/
  | computed (extranonce1 : Bytes) (extranonce2 : Extranonce2)
  deriving Repr, DecidableEq

/-- A job prepared for mining. -/
structure Work where
  job : Job
  source : RootSource
  target : Target
  deriving Repr, DecidableEq

namespace Work

/-- Why work cannot be mined. -/
inductive Fault where
  | emptyJobId
  | zeroTarget
  deriving Repr, DecidableEq

/-- The wording of a fault. -/
def Fault.message : Fault → String
  | .emptyJobId => "job id is empty"
  | .zeroTarget => "share target is zero"

/-- Whether the work can be mined; the job id is looked at first. -/
def validate (work : Work) : Except Fault Unit :=
  if work.job.id = "" then .error .emptyJobId
  else if work.target.isZero then .error .zeroTarget
  else .ok ()

/-- The Merkle root in the header. -/
def merkleRoot (work : Work) : Bytes32 :=
  match work.source with
  | .fixed root => root
  | .computed extranonce1 extranonce2 =>
      Merkle.root
        (Merkle.coinbaseHash work.job.coinbase1 extranonce1 extranonce2.toBytes
          work.job.coinbase2)
        work.job.branches

/-- The second extranonce, if the root depends on one. -/
def extranonce2? (work : Work) : Option Extranonce2 :=
  match work.source with
  | .fixed _ => none
  | .computed _ extranonce2 => some extranonce2

/-- The header with nonce zero, if the work can be mined. -/
def headerTemplate (work : Work) : Except Fault HeaderTemplate :=
  match work.validate with
  | .error fault => .error fault
  | .ok () =>
      .ok (HeaderTemplate.ofFields work.job.version work.job.prevHash work.merkleRoot
        work.job.ntime work.job.nbits)

end Work

/-- A nonce whose header digest met the target. -/
structure Share where
  jobId : String
  extranonce2 : Option Extranonce2
  ntime : UInt32
  nonce : UInt32
  /-- The digest of the digest of the header. -/
  digest : Bytes32
  deriving Repr, DecidableEq

/-- The difficulty that the share reached. -/
def Share.difficulty (share : Share) : Difficulty :=
  Difficulty.ofDigest share.digest

end StratumMiner
