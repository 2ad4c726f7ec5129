import StratumMiner.Hash.Lanes
import StratumMiner.Text.Blank

/-!
# Batches of headers

A level says how many headers one call of a kernel hashes. A hasher is set to a level and knows the
widest kernel that the processor runs fast; when that is narrower than the level, a wide batch is
hashed in two halves. A batch of any length is cut into pieces of the level's size, and a short
last piece is filled up with copies of its last header, whose digests are left out.
-/

namespace StratumMiner

/-- The width of a hash kernel. -/
inductive Level where
  | scalar
  | wide8
  | wide16
  deriving Repr, DecidableEq

namespace Level

/-- The number of headers that one call of the kernel hashes. -/
def batchSize : Level → Nat
  | .scalar => 1
  | .wide8 => 8
  | .wide16 => 16

/-- The name of a level in settings and log lines. -/
def name : Level → String
  | .scalar => "scalar"
  | .wide8 => "wide8"
  | .wide16 => "wide16"

/-- Levels are ordered by width. -/
def isBelow (left right : Level) : Bool :=
  left.batchSize < right.batchSize

/-- Read a level by its name, its width or the instruction set that serves it. The error is the
text that names no level, trimmed and in lower case. -/
def parse (text : String) : Except String Level :=
  let lowered := Blank.lowerAscii (Blank.trim text)
  if lowered = "scalar" ∨ lowered = "1" then .ok .scalar
  else if lowered = "wide8" ∨ lowered = "8" ∨ lowered = "avx2" then .ok .wide8
  else if lowered = "wide16" ∨ lowered = "16" ∨ lowered = "avx512" then .ok .wide16
  else .error lowered

/-- The wording for a text that names no level. -/
def unknownMessage (text : String) : String :=
  "unknown hash level: " ++ text

end Level

/-- A hash level in use on a processor. -/
structure Hasher where
  /-- The level in use. -/
  level : Level
  /-- The widest level that the processor runs fast. -/
  available : Level
  deriving Repr, DecidableEq

namespace Hasher

/-- Sixteen headers as two batches of eight. -/
def hashHalves (headers : Vector HeaderBytes 16) : Vector Bytes32 16 :=
  let low := Lanes.hashHeaders (Vector.ofFn fun index : Fin 8 => headers[index.val])
  let high := Lanes.hashHeaders (Vector.ofFn fun index : Fin 8 => headers[index.val + 8])
  low ++ high

/-- The digests of sixteen headers on this processor. -/
def hashSixteen (hasher : Hasher) (headers : Vector HeaderBytes 16) : Vector Bytes32 16 :=
  match hasher.available with
  | .wide8 => hashHalves headers
  | .scalar | .wide16 => Lanes.hashHeaders headers

/-- A piece of at most `width` headers, filled up with copies of its last header. -/
def fill (width : Nat) (first : HeaderBytes) (rest : List HeaderBytes) :
    Vector HeaderBytes width :=
  let headers := (first :: rest).toArray
  let last := headers.back (by simp [headers])
  Vector.ofFn fun index => headers.getD index last

/-- The digests of a list of headers by a kernel of fixed width, for at most `fuel` pieces. -/
def hashPieces (width : Nat) (kernel : Vector HeaderBytes width → Vector Bytes32 width) :
    (fuel : Nat) → List HeaderBytes → List Bytes32
  | 0, _ => []
  | _, [] => []
  | fuel + 1, first :: rest =>
      let piece := rest.take (width - 1)
      let digests := kernel (fill width first piece)
      digests.toList.take (piece.length + 1) ++ hashPieces width kernel fuel (rest.drop (width - 1))

/-- The digest of the digest of each header. -/
def hashBatch (hasher : Hasher) (headers : List HeaderBytes) : List Bytes32 :=
  match hasher.level with
  | .scalar => headers.map Sha256.hashHeader
  | .wide8 => hashPieces 8 Lanes.hashHeaders headers.length headers
  | .wide16 => hashPieces 16 hasher.hashSixteen headers.length headers

/-- The digests for a number of slots; there are none unless each header has its slot. -/
def hashInto? (hasher : Hasher) (headers : List HeaderBytes) (slots : Nat) :
    Option (List Bytes32) :=
  if headers.length = slots then some (hasher.hashBatch headers) else none

end Hasher

end StratumMiner
