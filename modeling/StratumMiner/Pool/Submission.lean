import StratumMiner.Json.Basic
import StratumMiner.Mining.Work

/-!
# Submissions

A share is handed in as five strings: the user, the job, the second extranonce, the time and the
nonce. Numbers are in hexadecimal with eight digits, most significant first; the extranonce is the
bytes as they stand in the coinbase, and empty for work with a fixed root.
-/

namespace StratumMiner

/-- A share on its way to the pool. -/
structure Submission where
  username : String
  jobId : String
  extranonce2 : Option Extranonce2
  ntime : UInt32
  nonce : UInt32
  deriving Repr, DecidableEq

namespace Submission

/-- The submission of a share by a user. -/
def ofShare (username : String) (share : Share) : Submission :=
  { username, jobId := share.jobId, extranonce2 := share.extranonce2, ntime := share.ntime,
    nonce := share.nonce }

/-- The five strings. -/
def params (submission : Submission) : List String :=
  [submission.username, submission.jobId,
    match submission.extranonce2 with
    | none => ""
    | some extranonce2 => extranonce2.display,
    Hex.padded 8 submission.ntime.toNat, Hex.padded 8 submission.nonce.toNat]

/-- The five strings as parameters of a message. -/
def toJson (submission : Submission) : Json :=
  .array (submission.params.map .string)

end Submission

end StratumMiner
