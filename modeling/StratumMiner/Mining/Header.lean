import StratumMiner.Hash.HeaderKernel

/-!
# Block headers

A header has six fields; all integers are written least significant byte first:

```text
0   version      4
4   prevHash    32
36  merkleRoot  32
68  ntime        4
72  nbits        4
76  nonce        4
```

A template is the eighty bytes of a header that has been serialized once. Searching for a nonce
writes only the bytes of the nonce, and of the time when that is rolled.
-/

namespace StratumMiner

/-- The fields of a block header; both hashes are in the order of the header's bytes. -/
structure Header where
  version : UInt32
  prevHash : Bytes32
  merkleRoot : Bytes32
  ntime : UInt32
  nbits : UInt32
  nonce : UInt32
  deriving Repr, DecidableEq

/-- The eighty bytes of a header. -/
def Header.serialize (header : Header) : HeaderBytes :=
  Bytes.ofWordLE header.version ++ header.prevHash ++ header.merkleRoot ++
    Bytes.ofWordLE header.ntime ++ Bytes.ofWordLE header.nbits ++ Bytes.ofWordLE header.nonce

/-- The bytes of a header whose nonce and time can be rewritten in place. -/
structure HeaderTemplate where
  bytes : HeaderBytes
  deriving Repr, DecidableEq

namespace HeaderTemplate

/-- The template of a header with the given fields and nonce zero. -/
def ofFields (version : UInt32) (prevHash merkleRoot : Bytes32) (ntime nbits : UInt32) :
    HeaderTemplate :=
  ⟨Header.serialize { version, prevHash, merkleRoot, ntime, nbits, nonce := 0 }⟩

/-- The time in the header. -/
def ntime (template : HeaderTemplate) : UInt32 :=
  Bytes.wordLE template.bytes[68] template.bytes[69] template.bytes[70] template.bytes[71]

/-- The nonce in the header. -/
def nonce (template : HeaderTemplate) : UInt32 :=
  Bytes.wordLE template.bytes[76] template.bytes[77] template.bytes[78] template.bytes[79]

/-- Write the time into the header. -/
def setNtime (template : HeaderTemplate) (ntime : UInt32) : HeaderTemplate :=
  let word := Bytes.ofWordLE ntime
  ⟨(((template.bytes.set 68 word[0]).set 69 word[1]).set 70 word[2]).set 71 word[3]⟩

/-- The bytes of the header with another nonce. -/
def withNonce (template : HeaderTemplate) (nonce : UInt32) : HeaderBytes :=
  let word := Bytes.ofWordLE nonce
  (((template.bytes.set 76 word[0]).set 77 word[1]).set 78 word[2]).set 79 word[3]

/-- Write the nonce into the header. -/
def setNonce (template : HeaderTemplate) (nonce : UInt32) : HeaderTemplate :=
  ⟨template.withNonce nonce⟩

/-- The headers of consecutive nonces; after the last nonce comes nonce zero. -/
def batch (template : HeaderTemplate) (first : UInt32) (count : Nat) : List HeaderBytes :=
  (List.range count).map fun index => template.withNonce (first + UInt32.ofNat index)

end HeaderTemplate

end StratumMiner
