import Mathlib
import StratumMiner.Hash.HeaderKernel
import StratumMiner.Proofs.Bytes

/-!
# The header kernel hashes the padded message

The kernel for headers writes its three blocks down word by word.  They are the blocks of the padded
header and of the padded digest, so the kernel computes the digest of the digest of the eighty bytes
as of any other message.
-/

namespace StratumMiner.Sha256

/-! ## Words of a block -/

/-- A word of the block at the front of a byte string. -/
theorem getElem_blockOf (bytes : Bytes) (index : Nat) (inside : index < 16) :
    (blockOf bytes)[index] =
      Bytes.wordBE (bytes.getD (index * 4) 0) (bytes.getD (index * 4 + 1) 0)
        (bytes.getD (index * 4 + 2) 0) (bytes.getD (index * 4 + 3) 0) := by
  simp [blockOf, wordsOfBytes]

/-- A block has sixty-four bytes. -/
theorem blockOf_take (bytes : Bytes) : blockOf (bytes.take 64) = blockOf bytes := by
  ext index inside
  have byte (position : Nat) (early : position < 64) :
      (bytes.take 64).getD position 0 = bytes.getD position 0 := by
    simp [early]
  rw [getElem_blockOf, getElem_blockOf, byte _ (by omega), byte _ (by omega), byte _ (by omega),
    byte _ (by omega)]

/-- A block that begins with words is theirs as far as they go. -/
theorem getElem_blockOf_append_left {front back : Bytes} {index : Nat} (inside : index < 16)
    (inFront : index * 4 + 3 < front.length) :
    (blockOf (front ++ back))[index] = (blockOf front)[index] := by
  have byte (position : Nat) (early : position ≤ index * 4 + 3) :
      (front ++ back).getD position 0 = front.getD position 0 :=
    List.getD_append _ _ _ _ (Nat.lt_of_le_of_lt early inFront)
  rw [getElem_blockOf, getElem_blockOf, byte _ (by omega), byte _ (by omega), byte _ (by omega),
    byte _ (Nat.le_refl _)]

/-- What follows whole words is read as if it stood alone. -/
theorem getElem_blockOf_append_right {front back : Bytes} {words index : Nat}
    (whole : front.length = words * 4) (inside : words + index < 16) :
    (blockOf (front ++ back))[words + index] = (blockOf back)[index] := by
  have byte (offset : Nat) :
      (front ++ back).getD ((words + index) * 4 + offset) 0 = back.getD (index * 4 + offset) 0 := by
    rw [List.getD_append_right _ _ _ _ (by omega), whole]
    congr 1
    omega
  rw [getElem_blockOf, getElem_blockOf]
  exact congr (congr (congr (congrArg Bytes.wordBE (byte 0)) (byte 1)) (byte 2)) (byte 3)

theorem getElem_wordsOfBytes {count : Nat} (bytes : Vector UInt8 (count * 4)) (index : Nat)
    (inside : index < count) :
    (wordsOfBytes bytes)[index] =
      Bytes.wordBE bytes[index * 4] bytes[index * 4 + 1] bytes[index * 4 + 2]
        bytes[index * 4 + 3] := by
  simp [wordsOfBytes]

/-- A block cut from a row of words, behind some of them. -/
theorem getElem_blockOf_drop (count : Nat) (bytes : Vector UInt8 (count * 4)) (words : Nat)
    {index : Nat} (inside : index < 16) (inBytes : words + index < count) :
    (blockOf (bytes.toList.drop (words * 4)))[index] = (wordsOfBytes bytes)[words + index] := by
  have byte (offset : Nat) (small : offset < 4) :
      (bytes.toList.drop (words * 4)).getD (index * 4 + offset) 0 =
        bytes[(words + index) * 4 + offset] := by
    have position : words * 4 + (index * 4 + offset) = (words + index) * 4 + offset := by ring
    have present : (words + index) * 4 + offset < count * 4 := by omega
    simp [position, present]
  rw [getElem_blockOf, getElem_wordsOfBytes]
  exact congr (congr (congr (congrArg Bytes.wordBE (byte 0 (by decide))) (byte 1 (by decide)))
    (byte 2 (by decide))) (byte 3 (by decide))

/-- The bytes of a word of a row. -/
theorem getElem_wordsToBytes {count : Nat} (words : Vector UInt32 count) (index offset : Nat)
    (inside : index < count) (small : offset < 4) :
    (wordsToBytes words)[index * 4 + offset] = (Bytes.ofWordBE words[index])[offset] := by
  have word : (index * 4 + offset) / 4 = index := by omega
  have byte : (index * 4 + offset) % 4 = offset := by omega
  simp only [wordsToBytes, Vector.getElem_flatten, Vector.getElem_map, word, byte]

/-- The bytes of a row of words spell the words again. -/
theorem wordsOfBytes_wordsToBytes {count : Nat} (words : Vector UInt32 count) :
    wordsOfBytes (wordsToBytes words) = words := by
  ext1 index inside
  have first := getElem_wordsToBytes words index 0 inside (by decide)
  simp only [Nat.add_zero] at first
  rw [getElem_wordsOfBytes, first, getElem_wordsToBytes words index 1 inside (by decide),
    getElem_wordsToBytes words index 2 inside (by decide),
    getElem_wordsToBytes words index 3 inside (by decide)]
  exact Bytes.wordBE_ofWordBE words[index]

/-! ## Padded headers and digests -/

/-- The padding of a message of eighty bytes. -/
def headerPadding : Bytes :=
  0x80 :: List.replicate 39 0 ++ Bytes.ofNatBE 8 640

theorem blockOf_headerPadding :
    blockOf headerPadding =
      #v[paddingWord, 0, 0, 0, 0, 0, 0, 0, 0, 0, 0, headerBits, 0, 0, 0, 0] := by
  decide

/-- The padding of a message of thirty-two bytes. -/
def digestPadding : Bytes :=
  0x80 :: List.replicate 23 0 ++ Bytes.ofNatBE 8 256

theorem blockOf_digestPadding :
    blockOf digestPadding =
      #v[paddingWord, 0, 0, 0, 0, 0, 0, digestBits, 0, 0, 0, 0, 0, 0, 0, 0] := by
  decide

theorem pad_header (header : HeaderBytes) : pad header.toList = header.toList ++ headerPadding := by
  simp [pad, headerPadding]

theorem pad_digest (digest : Bytes32) : pad digest.toList = digest.toList ++ digestPadding := by
  simp [pad, digestPadding]

/-- The first block of a padded header is its first sixteen words. -/
theorem blockOf_take_header (header : HeaderBytes) :
    blockOf ((pad header.toList).take 64) = headBlock (headerWords header) := by
  ext1 index inside
  have early : index * 4 + 3 < header.toList.length := by
    rw [Vector.length_toList]
    omega
  rw [blockOf_take, pad_header, getElem_blockOf_append_left inside early]
  refine (getElem_blockOf_drop 20 header 0 inside (by omega)).trans ?_
  simp [headBlock, headerWords]

/-- The second block of a padded header is its last four words and the padding. -/
theorem blockOf_drop_header (header : HeaderBytes) :
    blockOf (((pad header.toList).drop 64).take 64) = tailBlock id (headerWords header) := by
  have behind : (header.toList ++ headerPadding).drop 64 =
      header.toList.drop (16 * 4) ++ headerPadding :=
    List.drop_append_of_le_length (by simp)
  have length : (header.toList.drop (16 * 4)).length = 4 * 4 := by simp
  ext1 index inside
  rw [blockOf_take, pad_header, behind]
  rcases Nat.lt_or_ge index 4 with front | back
  · rw [getElem_blockOf_append_left inside (by omega)]
    refine (getElem_blockOf_drop 20 header 16 inside (by omega)).trans ?_
    interval_cases index <;> simp [tailBlock, headerWords]
  · obtain ⟨later, rfl⟩ := Nat.exists_eq_add_of_le back
    have bound : later < 12 := by omega
    rw [getElem_blockOf_append_right length inside, blockOf_headerPadding]
    interval_cases later <;> simp [tailBlock]

/-- The block of a padded digest is its eight words and the padding. -/
theorem blockOf_digest (state : State) :
    blockOf ((pad state.toBytes.toList).take 64) = digestBlock state := by
  have length : state.toBytes.toList.length = 8 * 4 := Vector.length_toList
  ext1 index inside
  rw [blockOf_take, pad_digest]
  rcases Nat.lt_or_ge index 8 with front | back
  · rw [getElem_blockOf_append_left inside (by omega)]
    refine (getElem_blockOf_drop 8 state.toBytes 0 inside (by omega)).trans ?_
    simp only [State.toBytes, wordsOfBytes_wordsToBytes]
    interval_cases index <;> rfl
  · obtain ⟨later, rfl⟩ := Nat.exists_eq_add_of_le back
    have bound : later < 8 := by omega
    rw [getElem_blockOf_append_right length inside, blockOf_digestPadding]
    interval_cases later <;> rfl

/-- The digest of the bytes of a header. -/
theorem hash_header (header : HeaderBytes) :
    hash header.toList =
      ((initialState.compress (headBlock (headerWords header))).compress
        (tailBlock id (headerWords header))).toBytes := by
  have length : (pad header.toList).length / 64 = 2 := by
    simp [pad_header, headerPadding]
  simp only [hash, length, blocks, List.foldl_cons, List.foldl_nil, blockOf_take_header,
    blockOf_drop_header]

/-- The digest of the bytes of a digest. -/
theorem hash_digest (state : State) :
    hash state.toBytes.toList = (initialState.compress (digestBlock state)).toBytes := by
  have length : (pad state.toBytes.toList).length / 64 = 1 := by
    simp [pad_digest, digestPadding]
  simp only [hash, length, blocks, List.foldl_cons, List.foldl_nil, blockOf_digest]

/-- The header kernel computes the digest of the digest of the bytes. -/
theorem hashHeader_eq_hashTwice (header : HeaderBytes) :
    hashHeader header = hashTwice header.toList := by
  rw [hashTwice, hash_header, hash_digest]
  rfl

end StratumMiner.Sha256
