import StratumMiner.Hash.Sha256

/-!
# Hashing one block header

A block header has eighty bytes, so its padded form is always two blocks and that of its digest is
always one. The kernel writes these three blocks down directly, at the level of words.
-/

namespace StratumMiner

/-- The eighty bytes of a block header. -/
abbrev HeaderBytes := Vector UInt8 80

/-- The length of a block header in bytes. -/
def headerLength : Nat := 80

namespace Sha256

/-- The length of a header in bits, the last word of its second block. -/
def headerBits : UInt32 := 640

/-- The length of a digest in bits, the last word of its block. -/
def digestBits : UInt32 := 256

/-- The twenty words of a header. -/
def headerWords (header : HeaderBytes) : Vector UInt32 20 :=
  wordsOfBytes header

/-- The first sixteen words of a header. -/
def headBlock {Word : Type} (words : Vector Word 20) : Vector Word 16 :=
  Vector.ofFn fun index => words[index.val]

/-- The last four words of a header and the padding of an eighty-byte message. The words of the
padding are given in the form that the words of the header have. -/
def tailBlock {Word : Type} (constant : UInt32 → Word) (words : Vector Word 20) :
    Vector Word 16 :=
  let zero := constant 0
  #v[words[16], words[17], words[18], words[19], constant paddingWord, zero, zero, zero, zero,
    zero, zero, zero, zero, zero, zero, constant headerBits]

/-- A digest and the padding of a thirty-two-byte message. -/
def digestBlock (digest : State) : Block :=
  #v[digest.a, digest.b, digest.c, digest.d, digest.e, digest.f, digest.g, digest.h, paddingWord,
    0, 0, 0, 0, 0, 0, digestBits]

/-- The digest of the digest of a header. -/
def hashHeader (header : HeaderBytes) : Bytes32 :=
  let words := headerWords header
  let inner := (initialState.compress (headBlock words)).compress (tailBlock id words)
  (initialState.compress (digestBlock inner)).toBytes

end Sha256

end StratumMiner
