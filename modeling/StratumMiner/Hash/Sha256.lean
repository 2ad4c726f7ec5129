import StratumMiner.Bytes

/-!
# SHA-256

The compression function on words, and the hash of a byte string of any length: the message is
padded with a one bit, zeros and its length in bits, and its blocks of sixteen words are compressed
one after another. Hashing twice gives the digests of coinbases, Merkle nodes and block headers.

The message schedule grows one word at a time, so its length is part of its type and every word it
reads is known to exist.
-/

namespace StratumMiner.Sha256

/-- Sixteen words of input to the compression function. -/
abbrev Block := Vector UInt32 16

/-- The eight chaining words. -/
structure State where
  (a b c d e f g h : UInt32)
  deriving Repr, DecidableEq

/-- The fractional parts of the cube roots of the first sixty-four primes. -/
def roundConstants : Vector UInt32 64 := #v[
  0x428a2f98, 0x71374491, 0xb5c0fbcf, 0xe9b5dba5, 0x3956c25b, 0x59f111f1, 0x923f82a4, 0xab1c5ed5,
  0xd807aa98, 0x12835b01, 0x243185be, 0x550c7dc3, 0x72be5d74, 0x80deb1fe, 0x9bdc06a7, 0xc19bf174,
  0xe49b69c1, 0xefbe4786, 0x0fc19dc6, 0x240ca1cc, 0x2de92c6f, 0x4a7484aa, 0x5cb0a9dc, 0x76f988da,
  0x983e5152, 0xa831c66d, 0xb00327c8, 0xbf597fc7, 0xc6e00bf3, 0xd5a79147, 0x06ca6351, 0x14292967,
  0x27b70a85, 0x2e1b2138, 0x4d2c6dfc, 0x53380d13, 0x650a7354, 0x766a0abb, 0x81c2c92e, 0x92722c85,
  0xa2bfe8a1, 0xa81a664b, 0xc24b8b70, 0xc76c51a3, 0xd192e819, 0xd6990624, 0xf40e3585, 0x106aa070,
  0x19a4c116, 0x1e376c08, 0x2748774c, 0x34b0bcb5, 0x391c0cb3, 0x4ed8aa4a, 0x5b9cca4f, 0x682e6ff3,
  0x748f82ee, 0x78a5636f, 0x84c87814, 0x8cc70208, 0x90befffa, 0xa4506ceb, 0xbef9a3f7, 0xc67178f2]

/-- The fractional parts of the square roots of the first eight primes. -/
def initialState : State :=
  ⟨0x6a09e667, 0xbb67ae85, 0x3c6ef372, 0xa54ff53a, 0x510e527f, 0x9b05688c, 0x1f83d9ab, 0x5be0cd19⟩

/-- The word after a message that ends on a word: a single one bit. -/
def paddingWord : UInt32 := 0x80000000

/-- Rotation towards the low end, by an amount between one and thirty-one. -/
@[inline] def rotateRight (word amount : UInt32) : UInt32 :=
  (word >>> amount) ||| (word <<< (32 - amount))

/-- The mixing of a schedule word fifteen places back. -/
@[inline] def smallSigma0 (word : UInt32) : UInt32 :=
  rotateRight word 7 ^^^ rotateRight word 18 ^^^ (word >>> 3)

/-- The mixing of a schedule word two places back. -/
@[inline] def smallSigma1 (word : UInt32) : UInt32 :=
  rotateRight word 17 ^^^ rotateRight word 19 ^^^ (word >>> 10)

/-- The mixing of the first chaining word. -/
@[inline] def bigSigma0 (word : UInt32) : UInt32 :=
  rotateRight word 2 ^^^ rotateRight word 13 ^^^ rotateRight word 22

/-- The mixing of the fifth chaining word. -/
@[inline] def bigSigma1 (word : UInt32) : UInt32 :=
  rotateRight word 6 ^^^ rotateRight word 11 ^^^ rotateRight word 25

/-- Each bit of `chooser` picks a bit of one of the other two words. -/
@[inline] def choose (chooser set clear : UInt32) : UInt32 :=
  (chooser &&& set) ^^^ (~~~chooser &&& clear)

/-- Each bit is the one that two of the three words agree on. -/
@[inline] def majority (first second third : UInt32) : UInt32 :=
  (first &&& second) ^^^ (first &&& third) ^^^ (second &&& third)

/-- A block followed by as many further schedule words as asked for. -/
def schedule (block : Block) : (steps : Nat) → Vector UInt32 (16 + steps)
  | 0 => block
  | step + 1 =>
      let words := schedule block step
      words.push
        (words[step] + smallSigma0 words[step + 1] + words[step + 9] +
          smallSigma1 words[step + 14])

/-- One round with its constant and schedule word. -/
@[inline] def State.round (state : State) (constant word : UInt32) : State :=
  let first := state.h + bigSigma1 state.e + choose state.e state.f state.g + constant + word
  let second := bigSigma0 state.a + majority state.a state.b state.c
  { a := first + second, b := state.a, c := state.b, d := state.c
    e := state.d + first, f := state.e, g := state.f, h := state.g }

/-- Chaining words added place by place. -/
def State.add (left right : State) : State :=
  { a := left.a + right.a, b := left.b + right.b, c := left.c + right.c, d := left.d + right.d
    e := left.e + right.e, f := left.f + right.f, g := left.g + right.g, h := left.h + right.h }

/-- The compression function: sixty-four rounds, then the old state is added. -/
def State.compress (state : State) (block : Block) : State :=
  let words := schedule block 48
  state.add (Fin.foldl 64 (fun running t => running.round roundConstants[t] words[t]) state)

/-- The chaining words in order. -/
def State.words (state : State) : Vector UInt32 8 :=
  #v[state.a, state.b, state.c, state.d, state.e, state.f, state.g, state.h]

/-- Eight values, one for each place of a state, in order. -/
@[inline] def buildFromEight {Word Result : Type}
    (build : Word → Word → Word → Word → Word → Word → Word → Word → Result)
    (words : Vector Word 8) : Result :=
  build words[0] words[1] words[2] words[3] words[4] words[5] words[6] words[7]

/-- The state with the given chaining words. -/
def State.ofWords (words : Vector UInt32 8) : State :=
  buildFromEight State.mk words

/-- The bytes of a row of words, most significant byte of each first. -/
def wordsToBytes {count : Nat} (words : Vector UInt32 count) : Vector UInt8 (count * 4) :=
  (words.map Bytes.ofWordBE).flatten

/-- The row of words that bytes spell, most significant byte of each first. -/
def wordsOfBytes {count : Nat} (bytes : Vector UInt8 (count * 4)) : Vector UInt32 count :=
  Vector.ofFn fun index =>
    have bound := index.isLt
    Bytes.wordBE bytes[index.val * 4] bytes[index.val * 4 + 1] bytes[index.val * 4 + 2]
      bytes[index.val * 4 + 3]

/-- The digest that a final state stands for. -/
def State.toBytes (state : State) : Bytes32 :=
  wordsToBytes state.words

/-- A message with its padding: a one bit, zeros up to eight bytes short of a whole block, and the
length of the message in bits. -/
def pad (message : Bytes) : Bytes :=
  message ++ 0x80 :: List.replicate ((119 - message.length % 64) % 64) 0 ++
    Bytes.ofNatBE 8 (8 * message.length)

/-- The first sixteen words of a byte string, with zeros where it ends early. -/
def blockOf (bytes : Bytes) : Block :=
  wordsOfBytes (Vector.ofFn fun index : Fin 64 => bytes.toArray.getD index 0)

/-- The first `count` blocks of a byte string. -/
def blocks : (count : Nat) → Bytes → List Block
  | 0, _ => []
  | count + 1, bytes => blockOf (bytes.take 64) :: blocks count (bytes.drop 64)

/-- The SHA-256 digest of a message. -/
def hash (message : Bytes) : Bytes32 :=
  let padded := pad message
  ((blocks (padded.length / 64) padded).foldl State.compress initialState).toBytes

/-- The digest of the digest of a message. -/
def hashTwice (message : Bytes) : Bytes32 :=
  hash (hash message).toList

end StratumMiner.Sha256
