import Mathlib
import StratumMiner.Mining.Merkle
import StratumMiner.Proofs.Hash.Message

/-!
# SHA-256 as FIPS 180-4 states it

Words are bit vectors, the schedule is a recurrence, and the constants are what they are said to be:
the beginnings of the fractional parts of roots of primes.  The message is filled up with the least
number of zeros that leaves room for its length.  Of the library's own definitions only the readings
of bytes as numbers are used.

The second half shows that the compression function on machine words, the padding and the hash of a
byte string of any length are those of the standard.  The header kernel, which writes its blocks
down word by word, therefore computes the standard's digest of the standard's digest, and so do
coinbase hashes and Merkle nodes.
-/

namespace StratumMiner.Sha256

namespace Standard

abbrev Word := BitVec 32

/-! ## Functions and constants -/

def ch (x y z : Word) : Word :=
  (x &&& y) ^^^ (~~~x &&& z)

def maj (x y z : Word) : Word :=
  (x &&& y) ^^^ (x &&& z) ^^^ (y &&& z)

def bigSigma0 (x : Word) : Word :=
  x.rotateRight 2 ^^^ x.rotateRight 13 ^^^ x.rotateRight 22

def bigSigma1 (x : Word) : Word :=
  x.rotateRight 6 ^^^ x.rotateRight 11 ^^^ x.rotateRight 25

def smallSigma0 (x : Word) : Word :=
  x.rotateRight 7 ^^^ x.rotateRight 18 ^^^ x >>> 3

def smallSigma1 (x : Word) : Word :=
  x.rotateRight 17 ^^^ x.rotateRight 19 ^^^ x >>> 10

/-- The first thirty-two bits of the fractional part of a root of a number. -/
def rootFraction (degree number : Nat) : Word :=
  .ofNat 32 (Nat.nthRoot degree (number * (2 ^ 32) ^ degree))

/-- The constant of a round comes from the cube root of the prime of its number. -/
noncomputable def constant (t : Nat) : Word :=
  rootFraction 3 (Nat.nth Nat.Prime t)

/-! ## Preprocessing -/

/-- The least number of zero bytes that leave eight bytes of the last block for the length. -/
def fill (length : Nat) : Nat :=
  Nat.find (p := fun zeros => (length + 1 + zeros) % 64 = 56)
    ⟨(119 - length % 64) % 64, by omega⟩

/-- The message, a one bit, zeros, and the length of the message in bits. -/
def pad (message : Bytes) : Bytes :=
  message ++ 0x80 :: List.replicate (fill message.length) 0 ++
    Bytes.ofNatBE 8 (8 * message.length)

/-- Word `t` of a byte string. -/
def wordAt (bytes : Bytes) (t : Nat) : Word :=
  .ofNat 32 (Bytes.toNatBE ((bytes.drop (4 * t)).take 4))

/-! ## Computation -/

/-- The eight working variables, or a hash value. -/
@[ext] structure Variables where
  (a b c d e f g h : Word)

/-- The hash value before the first block, from the square roots of the first eight primes. -/
noncomputable def initial : Variables :=
  let start (t : Nat) := rootFraction 2 (Nat.nth Nat.Prime t)
  ⟨start 0, start 1, start 2, start 3, start 4, start 5, start 6, start 7⟩

/-- The message schedule of a block. -/
def schedule (block : Nat → Word) (t : Nat) : Word :=
  if t < 16 then block t
  else
    smallSigma1 (schedule block (t - 2)) + schedule block (t - 7) +
      smallSigma0 (schedule block (t - 15)) + schedule block (t - 16)

/-- Round `t`. -/
noncomputable def round (words : Nat → Word) (vars : Variables) (t : Nat) : Variables :=
  let first := vars.h + bigSigma1 vars.e + ch vars.e vars.f vars.g + constant t + words t
  let second := bigSigma0 vars.a + maj vars.a vars.b vars.c
  { a := first + second, b := vars.a, c := vars.b, d := vars.c
    e := vars.d + first, f := vars.e, g := vars.f, h := vars.g }

/-- The hash value behind a block. -/
noncomputable def compress (value : Variables) (block : Nat → Word) : Variables :=
  let last := (List.range 64).foldl (round (schedule block)) value
  { a := last.a + value.a, b := last.b + value.b, c := last.c + value.c, d := last.d + value.d
    e := last.e + value.e, f := last.f + value.f, g := last.g + value.g, h := last.h + value.h }

/-- The hash value behind the first blocks of a byte string. -/
noncomputable def chain (bytes : Bytes) : (count : Nat) → Variables
  | 0 => initial
  | count + 1 => compress (chain bytes count) fun t => wordAt bytes (16 * count + t)

/-- The bytes of a hash value. -/
def Variables.toBytes (value : Variables) : Bytes :=
  [value.a, value.b, value.c, value.d, value.e, value.f, value.g, value.h].flatMap fun word =>
    Bytes.ofNatBE 4 word.toNat

/-- The SHA-256 digest of a message. -/
noncomputable def digest (message : Bytes) : Bytes :=
  (chain (pad message) ((pad message).length / 64)).toBytes

theorem schedule_of_lt (block : Nat → Word) {t : Nat} (early : t < 16) :
    schedule block t = block t := by
  rw [schedule, if_pos early]

theorem schedule_of_ge (block : Nat → Word) (t : Nat) :
    schedule block (16 + t) =
      smallSigma1 (schedule block (t + 14)) + schedule block (t + 9) +
        smallSigma0 (schedule block (t + 1)) + schedule block t := by
  have two : 16 + t - 2 = t + 14 := by omega
  have seven : 16 + t - 7 = t + 9 := by omega
  have fifteen : 16 + t - 15 = t + 1 := by omega
  have sixteen : 16 + t - 16 = t := by omega
  rw [schedule, if_neg (by omega), two, seven, fifteen, sixteen]

/-- Only the first sixteen words of a block are scheduled. -/
theorem schedule_congr {block other : Nat → Word} (same : ∀ t < 16, block t = other t) (t : Nat) :
    schedule block t = schedule other t := by
  induction t using Nat.strongRecOn with
  | ind t ih =>
      rcases Nat.lt_or_ge t 16 with early | late
      · rw [schedule_of_lt block early, schedule_of_lt other early, same t early]
      · obtain ⟨later, rfl⟩ := Nat.exists_eq_add_of_le late
        rw [schedule_of_ge, schedule_of_ge, ih (later + 14) (by omega), ih (later + 9) (by omega),
          ih (later + 1) (by omega), ih later (by omega)]

theorem compress_congr {value : Variables} {block other : Nat → Word}
    (same : ∀ t < 16, block t = other t) : compress value block = compress value other := by
  have words : schedule block = schedule other := funext (schedule_congr same)
  rw [compress, compress, words]

theorem fill_eq (length : Nat) : fill length = (119 - length % 64) % 64 := by
  rw [fill, Nat.find_eq_iff]
  refine ⟨by omega, fun fewer less => ?_⟩
  omega

end Standard

/-! ## The functions -/

theorem toBitVec_rotateRight (word amount : UInt32) (positive : 0 < amount.toNat)
    (small : amount.toNat < 32) :
    (rotateRight word amount).toBitVec = word.toBitVec.rotateRight amount.toNat := by
  have low : amount.toBitVec.toNat % 32 = amount.toNat := Nat.mod_eq_of_lt small
  have high : (32 - amount).toBitVec.toNat % 32 = 32 - amount.toNat := by
    have size := UInt32.toNat_sub_of_le 32 amount (by simp [UInt32.le_iff_toNat_le]; omega)
    simp at size ⊢
    omega
  have width : (32 : BitVec 32).toNat = 32 := rfl
  rw [BitVec.rotateRight_eq_rotateRightAux_of_lt small]
  simp only [rotateRight, UInt32.toBitVec_or, UInt32.toBitVec_shiftRight,
    UInt32.toBitVec_shiftLeft, BitVec.rotateRightAux, BitVec.shiftLeft_eq', BitVec.ushiftRight_eq',
    BitVec.toNat_umod, width, low, high]

theorem toBitVec_smallSigma0 (word : UInt32) :
    (smallSigma0 word).toBitVec = Standard.smallSigma0 word.toBitVec := by
  simp [smallSigma0, Standard.smallSigma0, toBitVec_rotateRight]

theorem toBitVec_smallSigma1 (word : UInt32) :
    (smallSigma1 word).toBitVec = Standard.smallSigma1 word.toBitVec := by
  simp [smallSigma1, Standard.smallSigma1, toBitVec_rotateRight]

theorem toBitVec_bigSigma0 (word : UInt32) :
    (bigSigma0 word).toBitVec = Standard.bigSigma0 word.toBitVec := by
  simp [bigSigma0, Standard.bigSigma0, toBitVec_rotateRight]

theorem toBitVec_bigSigma1 (word : UInt32) :
    (bigSigma1 word).toBitVec = Standard.bigSigma1 word.toBitVec := by
  simp [bigSigma1, Standard.bigSigma1, toBitVec_rotateRight]

theorem toBitVec_choose (chooser set clear : UInt32) :
    (choose chooser set clear).toBitVec =
      Standard.ch chooser.toBitVec set.toBitVec clear.toBitVec :=
  rfl

theorem toBitVec_majority (first second third : UInt32) :
    (majority first second third).toBitVec =
      Standard.maj first.toBitVec second.toBitVec third.toBitVec :=
  rfl

/-! ## The constants -/

/-- The first sixty-four primes. -/
def firstPrimes : List Nat :=
  [2, 3, 5, 7, 11, 13, 17, 19, 23, 29, 31, 37, 41, 43, 47, 53, 59, 61, 67, 71, 73, 79, 83, 89, 97,
    101, 103, 107, 109, 113, 127, 131, 137, 139, 149, 151, 157, 163, 167, 173, 179, 181, 191, 193,
    197, 199, 211, 223, 227, 229, 233, 239, 241, 251, 257, 263, 269, 271, 277, 281, 283, 293, 307,
    311]

theorem prime_iff_trial {number : Nat} (small : number < 18 * 18) :
    number.Prime ↔ 2 ≤ number ∧ ∀ m < 18, 2 ≤ m → m * m ≤ number → ¬ m ∣ number := by
  rw [Nat.prime_def_le_sqrt]
  refine and_congr_right fun _ => ⟨fun none m _ two square => ?_, fun none m two root => ?_⟩
  · exact none m two (Nat.le_sqrt.mpr square)
  · have square := Nat.le_sqrt.mp root
    have bounded : m < 18 := by
      by_contra large
      have beyond : 18 * 18 ≤ m * m := Nat.mul_le_mul (by omega) (by omega)
      omega
    exact none m bounded two square

theorem filter_prime_range : (List.range 312).filter Nat.Prime = firstPrimes := by
  -- Trial division up to the root: the kernel has to look at every number below 312.
  have trial : (List.range 312).filter
      (fun k => 2 ≤ k ∧ ∀ m < 18, 2 ≤ m → m * m ≤ k → ¬ m ∣ k) = firstPrimes := by
    decide +kernel
  rw [← trial]
  refine List.filter_congr fun k inside => ?_
  have small : k < 312 := List.mem_range.mp inside
  rw [decide_eq_decide]
  exact prime_iff_trial (by omega)

theorem nth_of_getElem?_filter_range (p : Nat → Prop) [DecidablePred p] (bound : Nat)
    {t value : Nat} (found : ((List.range bound).filter p)[t]? = some value) :
    Nat.nth p t = value := by
  induction bound with
  | zero => simp at found
  | succ bound ih =>
      have length : ((List.range bound).filter p).length = Nat.count p bound := by
        rw [Nat.count_eq_card_filter_range]
        rfl
      rw [List.range_succ, List.filter_append, List.getElem?_append, length] at found
      split at found
      · exact ih found
      · by_cases holds : p bound
        · simp only [holds, decide_true, List.filter_cons_of_pos, List.filter_nil] at found
          obtain ⟨rfl, rfl⟩ : t = Nat.count p bound ∧ bound = value := by
            rw [List.getElem?_singleton] at found
            split at found
            · exact ⟨by omega, Option.some.inj found⟩
            · exact absurd found (by simp)
          exact Nat.nth_count holds
        · simp [holds] at found

theorem nth_prime_eq (t : Fin 64) : Nat.nth Nat.Prime t = firstPrimes.getD t 0 := by
  refine nth_of_getElem?_filter_range Nat.Prime 312 ?_
  rw [filter_prime_range]
  have inside : t.val < firstPrimes.length := t.isLt
  simp [inside]

/-- The constants of the rounds are those of the standard. -/
theorem toBitVec_roundConstants {t : Nat} (inside : t < 64) :
    roundConstants[t].toBitVec = Standard.constant t := by
  have table : ∀ (t : Nat) (inside : t < 64), roundConstants[t].toBitVec =
      Standard.rootFraction 3 (firstPrimes.getD t 0) := by
    decide +kernel
  rw [table t inside, Standard.constant, nth_prime_eq ⟨t, inside⟩]

/-- The words of a state as the standard has them. -/
def State.variables (state : State) : Standard.Variables :=
  { a := state.a.toBitVec, b := state.b.toBitVec, c := state.c.toBitVec, d := state.d.toBitVec
    e := state.e.toBitVec, f := state.f.toBitVec, g := state.g.toBitVec, h := state.h.toBitVec }

theorem toBitVec_initialState (t : Fin 8) :
    initialState.words[t].toBitVec = Standard.rootFraction 2 (Nat.nth Nat.Prime t) := by
  have table : ∀ t : Fin 8, initialState.words[t].toBitVec =
      Standard.rootFraction 2 (firstPrimes.getD t 0) := by
    decide +kernel
  rw [table, ← nth_prime_eq ⟨t, by omega⟩]

/-- The first hash value is that of the standard. -/
theorem variables_initialState : initialState.variables = Standard.initial :=
  Standard.Variables.ext (toBitVec_initialState 0) (toBitVec_initialState 1)
    (toBitVec_initialState 2) (toBitVec_initialState 3) (toBitVec_initialState 4)
    (toBitVec_initialState 5) (toBitVec_initialState 6) (toBitVec_initialState 7)

/-! ## The compression function -/

/-- The words of a block as the standard has them. -/
def Block.word (block : Block) (t : Nat) : Standard.Word :=
  (block.toArray.getD t 0).toBitVec

theorem word_eq (block : Block) {t : Nat} (inside : t < 16) :
    Block.word block t = block[t].toBitVec := by
  simp [Block.word, inside]

/-- The schedule that grows word by word is the recurrence. -/
theorem toBitVec_schedule (block : Block) (steps t : Nat) (inside : t < 16 + steps) :
    (schedule block steps)[t].toBitVec = Standard.schedule (Block.word block) t := by
  induction steps generalizing t with
  | zero => rw [Standard.schedule_of_lt _ inside, word_eq block inside, schedule]
  | succ steps ih =>
      rcases Nat.lt_or_ge t (16 + steps) with early | late
      · rw [← ih t early]
        simp only [schedule, Vector.getElem_push_lt early]
      · obtain rfl : t = 16 + steps := by omega
        rw [Standard.schedule_of_ge, ← ih steps (by omega), ← ih (steps + 1) (by omega),
          ← ih (steps + 9) (by omega), ← ih (steps + 14) (by omega), ← toBitVec_smallSigma0,
          ← toBitVec_smallSigma1]
        simp only [schedule, Vector.getElem_push_eq, UInt32.toBitVec_add]
        ac_rfl

/-- A round is that of the standard. -/
theorem variables_round (state : State) (words : Vector UInt32 64) {t : Nat} (inside : t < 64)
    (standardWords : Nat → Standard.Word) (same : words[t].toBitVec = standardWords t) :
    (state.round roundConstants[t] words[t]).variables =
      Standard.round standardWords state.variables t := by
  simp only [State.round, State.variables, Standard.round, UInt32.toBitVec_add,
    toBitVec_bigSigma0, toBitVec_bigSigma1, toBitVec_choose, toBitVec_majority,
    toBitVec_roundConstants inside, same]

theorem variables_foldl_round {round : State → Fin 64 → State}
    {standardWords : Nat → Standard.Word}
    (same : ∀ running t,
      (round running t).variables = Standard.round standardWords running.variables t)
    (state : State) :
    (Fin.foldl 64 round state).variables =
      (List.range 64).foldl (Standard.round standardWords) state.variables := by
  rw [Fin.foldl_eq_foldl_finRange, ← List.map_coe_finRange_eq_range, List.foldl_map]
  exact (List.foldl_hom State.variables fun running t => (same running t).symm).symm

/-- The compression function is that of the standard. -/
theorem variables_compress (state : State) (block : Block) :
    (state.compress block).variables =
      Standard.compress state.variables (Block.word block) := by
  simp only [State.compress, Standard.compress]
  rw [← variables_foldl_round fun running t =>
    variables_round running (schedule block 48) t.isLt (Standard.schedule (Block.word block))
      (toBitVec_schedule block 48 t t.isLt)]
  simp only [State.add, State.variables, UInt32.toBitVec_add, BitVec.add_comm]
  rfl

/-! ## Messages -/

theorem pad_eq (message : Bytes) : pad message = Standard.pad message := by
  rw [pad, Standard.pad, Standard.fill_eq]

theorem take_four {bytes : Bytes} {place : Nat} (inside : place + 4 ≤ bytes.length) :
    (bytes.drop place).take 4 =
      [bytes.getD place 0, bytes.getD (place + 1) 0, bytes.getD (place + 2) 0,
        bytes.getD (place + 3) 0] := by
  apply List.ext_getElem
  · simp
    omega
  · intro index early late
    have small : index < 4 := late
    have present : place + index < bytes.length := by omega
    have first : place < bytes.length := by omega
    simp only [List.getElem_take, List.getElem_drop]
    interval_cases index <;> simp [present, first]

theorem toBitVec_wordBE (first second third fourth : UInt8) :
    (Bytes.wordBE first second third fourth).toBitVec =
      .ofNat 32 (Bytes.toNatBE [first, second, third, fourth]) := by
  have value : Bytes.toNatBE [first, second, third, fourth] =
      (Bytes.wordBE first second third fourth).toNat := by
    simp [Bytes.toNatBE, Bytes.toNat_wordBE]
  rw [value]
  exact BitVec.eq_of_toNat_eq (by simp)

/-- The words of a block are those of the byte string that it is cut from. -/
theorem word_blockOf {bytes : Bytes} {count t : Nat} (whole : 64 * (count + 1) ≤ bytes.length)
    (inside : t < 16) :
    Block.word (blockOf (bytes.drop (64 * count))) t = Standard.wordAt bytes (16 * count + t) := by
  have place (offset : Nat) : (bytes.drop (64 * count)).getD (t * 4 + offset) 0 =
      bytes.getD (4 * (16 * count + t) + offset) 0 := by
    have same : 64 * count + (t * 4 + offset) = 4 * (16 * count + t) + offset := by ring
    simp only [List.getD_eq_getElem?_getD, List.getElem?_drop, same]
  rw [word_eq _ inside, getElem_blockOf, toBitVec_wordBE, Standard.wordAt,
    take_four (by omega), ← place 1, ← place 2, ← place 3]
  exact congrArg (fun first => BitVec.ofNat 32 (Bytes.toNatBE (first :: _))) (place 0)

/-- One block more. -/
theorem blocks_succ (count : Nat) (bytes : Bytes) :
    blocks (count + 1) bytes = blocks count bytes ++ [blockOf (bytes.drop (64 * count))] := by
  induction count generalizing bytes with
  | zero => simp [blocks, blockOf_take]
  | succ count ih =>
      have behind : 64 + 64 * count = 64 * (count + 1) := by omega
      rw [blocks, ih, blocks, List.drop_drop, List.cons_append, behind]

theorem variables_foldl_blocks (bytes : Bytes) (count : Nat)
    (whole : 64 * count ≤ bytes.length) :
    ((blocks count bytes).foldl State.compress initialState).variables =
      Standard.chain bytes count := by
  induction count with
  | zero => exact variables_initialState
  | succ count ih =>
      rw [blocks_succ, List.foldl_append, List.foldl_cons, List.foldl_nil, variables_compress,
        ih (by omega), Standard.chain]
      exact Standard.compress_congr fun t inside => word_blockOf whole inside

theorem toList_wordsToBytes {count : Nat} (words : Vector UInt32 count) :
    (wordsToBytes words).toList =
      words.toList.flatMap fun word => Bytes.ofNatBE 4 word.toNat := by
  rw [wordsToBytes, Vector.flatten, Vector.toList_mk, Array.toList_flatten]
  simp only [← Bytes.toList_ofWordBE]
  simp [List.flatMap, Function.comp_def]
  rfl

theorem toList_toBytes (state : State) : state.toBytes.toList = state.variables.toBytes := by
  rw [State.toBytes, toList_wordsToBytes]
  rfl

/-- The hash of a byte string of any length is that of the standard. -/
theorem toList_hash (message : Bytes) : (Sha256.hash message).toList = Standard.digest message := by
  rw [Sha256.hash, toList_toBytes, variables_foldl_blocks _ _ (by omega), Standard.digest, pad_eq]

example : (Sha256.hash [0x61, 0x62, 0x63]).toList =
    [0xba, 0x78, 0x16, 0xbf, 0x8f, 0x01, 0xcf, 0xea, 0x41, 0x41, 0x40, 0xde, 0x5d, 0xae, 0x22, 0x23,
      0xb0, 0x03, 0x61, 0xa3, 0x96, 0x17, 0x7a, 0x9c, 0xb4, 0x10, 0xff, 0x61, 0xf2, 0x00, 0x15,
      0xad] := by
  decide +kernel

theorem toList_hashTwice (message : Bytes) :
    (hashTwice message).toList = Standard.digest (Standard.digest message) := by
  rw [hashTwice, toList_hash, toList_hash]

/-! ## The kernel's layout -/

/-- The words of one block of a byte string. -/
theorem map_wordAt (bytes : Bytes) (count : Nat) {block : Block}
    (cut : blockOf ((bytes.drop (64 * count)).take 64) = block)
    (whole : 64 * (count + 1) ≤ bytes.length) :
    (List.range 16).map (fun t => Standard.wordAt bytes (16 * count + t)) =
      block.toList.map UInt32.toBitVec := by
  rw [blockOf_take] at cut
  apply List.ext_getElem
  · simp
  · intro t early late
    have inside : t < 16 := by simpa using early
    simp only [List.getElem_map, List.getElem_range, Vector.getElem_toList]
    rw [← word_blockOf whole inside, cut, word_eq block inside]

/-- The words of the two blocks of a padded header. -/
theorem wordAt_pad_header (header : HeaderBytes) :
    (List.range 32).map (Standard.wordAt (Standard.pad header.toList)) =
      ((headBlock (headerWords header)).toList ++
        (tailBlock id (headerWords header)).toList).map UInt32.toBitVec := by
  have length : (pad header.toList).length = 128 := by simp [pad_header, headerPadding]
  have head := map_wordAt (pad header.toList) 0 (blockOf_take_header header) (by omega)
  have tail := map_wordAt (pad header.toList) 1 (blockOf_drop_header header) (by omega)
  have two : List.range 32 = List.range 16 ++ (List.range 16).map (16 + ·) := by
    rw [← List.range_add]
  rw [← pad_eq, two, List.map_append, List.map_append, ← head, ← tail, List.map_map]
  simp only [Nat.mul_zero, Nat.zero_add, Nat.mul_one, Function.comp_def]

/-- The words of the one block of a padded digest. -/
theorem wordAt_pad_digest (state : State) :
    (List.range 16).map (Standard.wordAt (Standard.pad state.toBytes.toList)) =
      (digestBlock state).toList.map UInt32.toBitVec := by
  have length : (pad state.toBytes.toList).length = 64 := by simp [pad_digest, digestPadding]
  have only := map_wordAt (pad state.toBytes.toList) 0 (blockOf_digest state) (by omega)
  rw [← pad_eq, ← only]
  simp only [Nat.mul_zero, Nat.zero_add]

/-- The header kernel computes the standard's digest of the standard's digest of the eighty bytes,
which is also what coinbases and Merkle nodes are hashed with.  The blocks that it writes down are
those of the padded header and of the padded inner digest. -/
theorem hashHeader_meets_standard :
    (∀ header : HeaderBytes,
      (hashHeader header).toList = Standard.digest (Standard.digest header.toList)) ∧
    (∀ coinbase1 extranonce1 extranonce2 coinbase2 : Bytes,
      (Merkle.coinbaseHash coinbase1 extranonce1 extranonce2 coinbase2).toList =
        Standard.digest
          (Standard.digest (coinbase1 ++ extranonce1 ++ extranonce2 ++ coinbase2))) ∧
    (∀ left right : Bytes32,
      (Merkle.node left right).toList =
        Standard.digest (Standard.digest (left.toList ++ right.toList))) ∧
    (∀ header : HeaderBytes,
      (Standard.pad header.toList).length = 2 * 64 ∧
        (List.range 32).map (Standard.wordAt (Standard.pad header.toList)) =
          ((headBlock (headerWords header)).toList ++
            (tailBlock id (headerWords header)).toList).map UInt32.toBitVec) ∧
    (∀ state : State,
      (Standard.pad state.toBytes.toList).length = 64 ∧
        (List.range 16).map (Standard.wordAt (Standard.pad state.toBytes.toList)) =
          (digestBlock state).toList.map UInt32.toBitVec) := by
  refine ⟨fun header => ?_, fun _ _ _ _ => toList_hashTwice _, fun _ _ => toList_hashTwice _,
    fun header => ⟨?_, wordAt_pad_header header⟩, fun state => ⟨?_, wordAt_pad_digest state⟩⟩
  · rw [hashHeader_eq_hashTwice, toList_hashTwice]
  · simp [← pad_eq, pad_header, headerPadding]
  · simp [← pad_eq, pad_digest, digestPadding]

end StratumMiner.Sha256
