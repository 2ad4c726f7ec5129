import StratumMiner.Json.Basic
import StratumMiner.Mining.Work
import StratumMiner.Text.Digits
import StratumMiner.Text.Quoted

/-!
# Job notices

A pool announces a job as a list of nine values: the id, the hash of the previous block, the two
parts of the coinbase, the branches, version, compact target and time, and whether earlier work is
worthless. Bytes are in hexadecimal and numbers have eight digits, most significant first. The
previous hash is sent with the bytes of each of its eight words reversed. Values after the ninth are
not looked at, and the first value that cannot be used is reported.
-/

namespace StratumMiner

/-- The values of a job notice. -/
inductive NoticeField where
  | id
  | prevHash
  | coinbase1
  | coinbase2
  | branches
  | branch
  | version
  | nbits
  | ntime
  | clean
  deriving Repr, DecidableEq

/-- The name of a value in messages. -/
def NoticeField.name : NoticeField → String
  | .id => "job_id"
  | .prevHash => "prev_hash"
  | .coinbase1 => "coinbase1"
  | .coinbase2 => "coinbase2"
  | .branches => "merkle_branches"
  | .branch => "merkle branch"
  | .version => "version"
  | .nbits => "nbits"
  | .ntime => "ntime"
  | .clean => "clean_jobs"

namespace Job

/-- Why a list of values announces no job. -/
inductive NoticeFault where
  | tooFew (count : Nat)
  | notString (field : NoticeField)
  | notArray (field : NoticeField)
  | notBool (field : NoticeField)
  | badHex (field : NoticeField) (fault : Hex.Fault)
  | wrongLength (field : NoticeField) (length : Nat)
  | notEightDigits (field : NoticeField) (text : String)
  | badNumber (field : NoticeField) (fault : Digits.Fault)
  deriving Repr, DecidableEq

/-- The wording of a fault. -/
def NoticeFault.message : NoticeFault → String
  | .tooFew count => "mining.notify needs 9 params, got " ++ toString count
  | .notString field => field.name ++ " not a string"
  | .notArray field => field.name ++ " not an array"
  | .notBool field => field.name ++ " not a bool"
  | .badHex field fault => field.name ++ " hex: " ++ fault.message
  | .wrongLength field length => field.name ++ " wrong length: " ++ toString length
  | .notEightDigits field text =>
      field.name ++ " must be 8 hex digits, got " ++ Quoted.text text
  | .badNumber field fault => field.name ++ " hex: " ++ fault.message

/-- Thirty-two bytes with the bytes of each four-byte word reversed. -/
def swapWords (bytes : Bytes32) : Bytes32 :=
  Vector.ofFn fun position => bytes[position.val / 4 * 4 + (3 - position.val % 4)]

/-- Reversing the words twice changes nothing. -/
theorem swapWords_swapWords (bytes : Bytes32) : swapWords (swapWords bytes) = bytes := by
  refine Vector.ext fun position inside => ?_
  have back : (position / 4 * 4 + (3 - position % 4)) / 4 * 4 +
      (3 - (position / 4 * 4 + (3 - position % 4)) % 4) = position := by omega
  simp only [swapWords, Vector.getElem_ofFn, back]

/-! ## Reading -/

/-- The text of a value. -/
def readText (field : NoticeField) (value : Json) : Except NoticeFault String :=
  match value with
  | .string text => .ok text
  | _ => .error (.notString field)

/-- The bytes that a value spells. -/
def readBytes (field : NoticeField) (value : Json) : Except NoticeFault Bytes := do
  match Hex.decode (← readText field value) with
  | .ok bytes => .ok bytes
  | .error fault => .error (.badHex field fault)

/-- The thirty-two bytes that a value spells. -/
def readBytes32 (field : NoticeField) (value : Json) : Except NoticeFault Bytes32 := do
  let bytes ← readBytes field value
  match Bytes.toVector? 32 bytes with
  | some vector => .ok vector
  | none => .error (.wrongLength field bytes.length)

/-- The word that a value spells with eight digits. -/
def readWord (field : NoticeField) (value : Json) : Except NoticeFault UInt32 := do
  let text ← readText field value
  if text.utf8ByteSize = 8 then
    match Digits.parseHex (UInt32.size - 1) text.toList with
    | .ok number => .ok (UInt32.ofNat number)
    | .error fault => .error (.badNumber field fault)
  else .error (.notEightDigits field text)

/-- The thirty-two bytes that each item of a value spells. -/
def readBranches (value : Json) : Except NoticeFault (List Bytes32) :=
  match value with
  | .array items => items.mapM (readBytes32 .branch)
  | _ => .error (.notArray .branches)

/-- The truth value that a value is. -/
def readFlag (field : NoticeField) (value : Json) : Except NoticeFault Bool :=
  match value with
  | .bool flag => .ok flag
  | _ => .error (.notBool field)

/-- The job that a list of values announces. -/
def ofNotice (values : List Json) : Except NoticeFault Job :=
  match values with
  | id :: prevHash :: coinbase1 :: coinbase2 :: branches :: version :: nbits :: ntime :: clean ::
      _ => do
      let id ← readText .id id
      let prevHash ← readBytes32 .prevHash prevHash
      let coinbase1 ← readBytes .coinbase1 coinbase1
      let coinbase2 ← readBytes .coinbase2 coinbase2
      let branches ← readBranches branches
      let version ← readWord .version version
      let nbits ← readWord .nbits nbits
      let ntime ← readWord .ntime ntime
      let clean ← readFlag .clean clean
      .ok { id, prevHash := swapWords prevHash, coinbase1, coinbase2, branches, version, nbits,
            ntime, clean }
  | values => .error (.tooFew values.length)

/-! ## Writing -/

/-- The notice of a job. -/
def toNotice (job : Job) : List Json :=
  [.string job.id,
    .string (Hex.encode (swapWords job.prevHash).toList),
    .string (Hex.encode job.coinbase1),
    .string (Hex.encode job.coinbase2),
    .array (job.branches.map fun branch => .string (Hex.encode branch.toList)),
    .string (Hex.padded 8 job.version.toNat),
    .string (Hex.padded 8 job.nbits.toNat),
    .string (Hex.padded 8 job.ntime.toNat),
    .bool job.clean]

end Job

end StratumMiner
