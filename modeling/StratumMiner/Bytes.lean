/-!
# Bytes and the numbers they spell

A byte string is a list of octets, and a field of fixed length is a vector of them. Both readings
as a natural number are defined here, least significant byte first and most significant byte first,
together with the fixed-width encodings that undo them.

Headers hold their integers least significant byte first, targets and words of the hash function
most significant byte first, so every module above says which reading it means.
-/

namespace StratumMiner

/-- A byte string of any length. -/
abbrev Bytes := List UInt8

/-- Thirty-two raw bytes: a digest, a block hash, a Merkle root or a tree node. -/
abbrev Bytes32 := Vector UInt8 32

namespace Bytes

/-- The natural number whose base-256 digits are the bytes, least significant first. -/
def toNatLE : Bytes → Nat
  | [] => 0
  | byte :: rest => byte.toNat + 256 * toNatLE rest

/-- The natural number whose base-256 digits are the bytes, most significant first. -/
def toNatBE (bytes : Bytes) : Nat :=
  bytes.foldl (fun value byte => value * 256 + byte.toNat) 0

/-- The `width` lowest base-256 digits of a number, least significant first. -/
def ofNatLE : (width : Nat) → (value : Nat) → Bytes
  | 0, _ => []
  | width + 1, value => UInt8.ofNat (value % 256) :: ofNatLE width (value / 256)

/-- The `width` lowest base-256 digits of a number, most significant first. -/
def ofNatBE (width value : Nat) : Bytes :=
  (ofNatLE width value).reverse

@[simp] theorem length_ofNatLE (width value : Nat) : (ofNatLE width value).length = width := by
  induction width generalizing value with
  | zero => rfl
  | succ width ih => simp [ofNatLE, ih]

@[simp] theorem length_ofNatBE (width value : Nat) : (ofNatBE width value).length = width := by
  simp [ofNatBE]

/-- The byte string as a vector, if it has exactly that length. -/
def toVector? (length : Nat) (bytes : Bytes) : Option (Vector UInt8 length) :=
  if h : bytes.length = length then some ⟨bytes.toArray, by simp [h]⟩ else none

/-- The `width` lowest base-256 digits of a number as a vector, most significant first. -/
def vectorOfNatBE (width value : Nat) : Vector UInt8 width :=
  ⟨(ofNatBE width value).toArray, by simp⟩

/-- The word spelled by four bytes, most significant first. -/
def wordBE (first second third fourth : UInt8) : UInt32 :=
  (first.toUInt32 <<< 24) ||| (second.toUInt32 <<< 16) ||| (third.toUInt32 <<< 8) ||| fourth.toUInt32

/-- The word spelled by four bytes, least significant first. -/
def wordLE (first second third fourth : UInt8) : UInt32 :=
  wordBE fourth third second first

/-- The four bytes of a word, most significant first. -/
def ofWordBE (word : UInt32) : Vector UInt8 4 :=
  #v[(word >>> 24).toUInt8, (word >>> 16).toUInt8, (word >>> 8).toUInt8, word.toUInt8]

/-- The four bytes of a word, least significant first. -/
def ofWordLE (word : UInt32) : Vector UInt8 4 :=
  #v[word.toUInt8, (word >>> 8).toUInt8, (word >>> 16).toUInt8, (word >>> 24).toUInt8]

/-- Order of byte strings by their first difference; a proper start comes before the whole. -/
def compareLex : Bytes → Bytes → Ordering
  | [], [] => .eq
  | [], _ :: _ => .lt
  | _ :: _, [] => .gt
  | left :: lefts, right :: rights =>
      if left < right then .lt
      else if right < left then .gt
      else compareLex lefts rights

end Bytes

end StratumMiner
