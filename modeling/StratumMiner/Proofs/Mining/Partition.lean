import Mathlib
import StratumMiner.Mining.Nonce

/-!
# The partition covers the nonce space

The pieces of the nonce space meet where the next multiple of the stride is, and the last one is
drawn out to the end.  Laid side by side in their order they give every nonce once.  All but the
last have the length of the stride, and the last is longer by what the division leaves over.
Computed in words, no bound wraps around or loses a digit.
-/

namespace StratumMiner.NonceRange

/-- The nonces of a range, as numbers. -/
def nonces (range : NonceRange) : List Nat :=
  List.range' range.start.toNat (range.stop - range.start.toNat)

/-- Where piece `index` begins and the one before it ends; the last piece ends with the space. -/
def cut (count index : Nat) : Nat :=
  if index = count then nonceSpace else index * (nonceSpace / count)

theorem cut_zero {count : Nat} (positive : 0 < count) : cut count 0 = 0 := by
  rw [cut, if_neg positive.ne, Nat.zero_mul]

theorem cut_self (count : Nat) : cut count count = nonceSpace :=
  if_pos rfl

section Piece

variable {count : Nat} (atMost : count ≤ nonceSpace) (index : Fin count)

theorem toNat_start_piece : (piece count atMost index).start.toNat = cut count index := by
  have inside : index * (nonceSpace / count) < nonceSpace := by
    have space : 0 < nonceSpace := by decide
    calc index * (nonceSpace / count) < count * (nonceSpace / count) :=
          Nat.mul_lt_mul_of_pos_right index.isLt
            (Nat.div_pos atMost (Nat.lt_of_le_of_lt (Nat.zero_le _) index.isLt))
      _ ≤ nonceSpace := Nat.mul_div_le _ _
  rw [cut, if_neg index.isLt.ne]
  exact (UInt32.toNat_ofNat').trans (Nat.mod_eq_of_lt inside)

theorem stop_piece : (piece count atMost index).stop = cut count (index + 1) := by
  simp only [piece, cut, Nat.succ_mul]

theorem cut_le_cut_succ (atMost : count ≤ nonceSpace) {index : Nat} (inside : index < count) :
    cut count index ≤ cut count (index + 1) := by
  have ordered := (piece count atMost ⟨index, inside⟩).ordered
  rwa [toNat_start_piece, stop_piece] at ordered

theorem nonces_piece : (piece count atMost index).nonces =
    List.range' (cut count index) (cut count (index + 1) - cut count index) := by
  rw [nonces, toNat_start_piece, stop_piece]

end Piece

/-- The first pieces, side by side. -/
theorem flatMap_cuts {count : Nat} (atMost : count ≤ nonceSpace) (positive : 0 < count)
    {first : Nat} (within : first ≤ count) :
    ((List.range first).flatMap fun index =>
      List.range' (cut count index) (cut count (index + 1) - cut count index)) =
        List.range (cut count first) := by
  induction first with
  | zero => rw [cut_zero positive]; rfl
  | succ first ih =>
      have meets := cut_le_cut_succ atMost within
      have next : List.range' 0 (cut count first) ++
          List.range' (0 + cut count first) (cut count (first + 1) - cut count first) =
            List.range' 0 (cut count first + (cut count (first + 1) - cut count first)) :=
        List.range'_append_1
      rw [Nat.zero_add, Nat.add_sub_cancel' meets] at next
      rw [List.range_succ, List.flatMap_append, ih (Nat.le_of_succ_le within),
        List.flatMap_singleton, List.range_eq_range', List.range_eq_range', next]

/-- The nonces of all ranges of a partition, in their order, are all nonces in order. -/
theorem flatMap_nonces_partition {workers : Nat} (positive : 0 < workers) :
    (partition workers).flatMap nonces = List.range nonceSpace := by
  have pieces : 0 < min workers nonceSpace := Nat.lt_min.mpr ⟨positive, by decide⟩
  have all := flatMap_cuts (Nat.min_le_right workers nonceSpace) pieces (Nat.le_refl _)
  rw [cut_self] at all
  rw [← all, partition, List.flatMap_def, List.flatMap_def, List.map_ofFn]
  congr 1
  apply List.ext_getElem
  · simp
  · intro index early late
    simp only [List.getElem_ofFn, Function.comp_apply, nonces_piece, List.getElem_map,
      List.getElem_range]

/-- Ranges that cut up the nonce space: each goes on where the one before it ends, from the first
nonce to the last, so that every nonce is in one of them and in no other. -/
structure CutUp (ranges : List NonceRange) : Prop where
  inhabited : ∀ range ∈ ranges, range.isEmpty = false
  first : ranges.head?.map start = some 0
  meet : ranges.IsChain fun range next => range.stop = next.start.toNat
  last : ranges.getLast?.map stop = some nonceSpace
  once : ∀ nonce, ∃! index : Fin ranges.length, ranges[index].contains nonce = true
  total : (ranges.map length).sum = nonceSpace

theorem mem_nonces_iff {range : NonceRange} {nonce : UInt32} :
    nonce.toNat ∈ range.nonces ↔ range.contains nonce = true := by
  have ordered := range.ordered
  rw [nonces, List.mem_range'_1, contains, Bool.and_eq_true, decide_eq_true_iff,
    decide_eq_true_iff, UInt32.le_iff_toNat_le]
  omega

theorem length_nonces (range : NonceRange) : range.nonces.length = range.length := by
  rw [nonces, List.length_range', length]

section Partition

variable {workers : Nat}

theorem length_partition : (partition workers).length = min workers nonceSpace := by
  rw [partition, List.length_ofFn]

section Piece

variable {index : Nat} (inside : index < (partition workers).length)

theorem toNat_start_partition :
    (partition workers)[index].start.toNat = cut (min workers nonceSpace) index := by
  simp only [partition, List.getElem_ofFn, toNat_start_piece]

theorem stop_partition :
    (partition workers)[index].stop = cut (min workers nonceSpace) (index + 1) := by
  simp only [partition, List.getElem_ofFn, stop_piece]

/-- The stride is the length of a piece, and the last one also takes what is left over. -/
theorem length_partition_piece :
    (partition workers)[index].length =
      nonceSpace / min workers nonceSpace +
        if index + 1 = min workers nonceSpace then nonceSpace % min workers nonceSpace else 0 := by
  rw [length, toNat_start_partition, stop_partition]
  rw [length_partition] at inside
  generalize min workers nonceSpace = count at inside ⊢
  have whole : count * (nonceSpace / count) + nonceSpace % count = nonceSpace :=
    Nat.div_add_mod _ _
  rw [cut, cut, if_neg inside.ne]
  generalize nonceSpace / count = stride, nonceSpace % count = rest at whole ⊢
  have next : (index + 1) * stride = index * stride + stride := Nat.succ_mul _ _
  split
  · next isLast =>
      rw [← isLast] at whole
      omega
  · omega

end Piece

/-- A piece is as long as the stride at least, and there is no more than one piece to a nonce. -/
theorem isEmpty_partition_piece (range : NonceRange) (member : range ∈ partition workers) :
    range.isEmpty = false := by
  obtain ⟨index, inside, rfl⟩ := List.mem_iff_getElem.mp member
  have positive : 0 < nonceSpace / min workers nonceSpace := by
    rw [length_partition] at inside
    exact Nat.div_pos (Nat.min_le_right _ _) (Nat.zero_lt_of_lt inside)
  rw [isEmpty, length_partition_piece inside, beq_eq_false_iff_ne]
  omega

/-- A nonce is in one of the ranges because it is among their nonces, and in one only because it is
among these once. -/
theorem partition_once (positive : 0 < workers) (nonce : UInt32) :
    ∃! index : Fin (partition workers).length,
      (partition workers)[index].contains nonce = true := by
  have all := flatMap_nonces_partition positive
  have among : nonce.toNat ∈ (partition workers).flatMap nonces := by
    rw [all, List.mem_range]
    exact nonce.toNat_lt
  have disjoint : (partition workers).Pairwise (Function.onFun List.Disjoint nonces) := by
    have nodup := List.nodup_range (n := nonceSpace)
    rw [← all] at nodup
    exact (List.nodup_flatMap.mp nodup).2
  obtain ⟨range, member, inRange⟩ := List.mem_flatMap.mp among
  obtain ⟨index, inside, rfl⟩ := List.mem_iff_getElem.mp member
  refine ⟨⟨index, inside⟩, mem_nonces_iff.mp inRange, ?_⟩
  intro other inOther
  have inOther := mem_nonces_iff.mpr inOther
  rcases Nat.lt_trichotomy other.val index with before | same | behind
  · have apart := List.pairwise_iff_getElem.mp disjoint _ _ other.isLt inside before
    exact absurd inRange (apart inOther)
  · exact Fin.ext same
  · have apart := List.pairwise_iff_getElem.mp disjoint _ _ inside other.isLt behind
    exact absurd inOther (apart inRange)

theorem partition_cutUp (positive : 0 < workers) : CutUp (partition workers) := by
  have pieces : 0 < (partition workers).length := by
    rw [length_partition]
    exact Nat.lt_min.mpr ⟨positive, by decide⟩
  refine ⟨isEmpty_partition_piece, ?_, ?_, ?_, partition_once positive, ?_⟩
  · rw [List.head?_eq_getElem?, List.getElem?_eq_getElem pieces, Option.map_some]
    have start := toNat_start_partition pieces
    rw [cut_zero (length_partition ▸ pieces)] at start
    exact congrArg some (UInt32.toNat_inj.mp start)
  · rw [List.isChain_iff_getElem]
    intro index inside
    rw [stop_partition, toNat_start_partition]
  · have isLast : (partition workers).length - 1 < (partition workers).length := by omega
    have behind : (partition workers).length - 1 + 1 = min workers nonceSpace := by
      rw [Nat.sub_add_cancel pieces, length_partition]
    rw [List.getLast?_eq_getElem?, List.getElem?_eq_getElem isLast, Option.map_some,
      stop_partition, behind, cut_self]
  · have all := congrArg List.length (flatMap_nonces_partition positive)
    rwa [List.length_flatMap, List.length_range, List.map_congr_left fun _ _ => length_nonces _]
      at all

end Partition

/-! ## In words

The bounds are computed in words of 64 bits, and a start is cut down to 32.  Each step is checked
here for what it could lose. -/

/-- The product of two words, if it is a word. -/
def product? (left right : UInt64) : Option UInt64 :=
  if left.toNat * right.toNat < UInt64.size then some (left * right) else none

/-- The sum of two words, if it is a word. -/
def sum? (left right : UInt64) : Option UInt64 :=
  if left.toNat + right.toNat < UInt64.size then some (left + right) else none

/-- The nonce that a word is, if it has no digits beyond those of a nonce. -/
def nonce? (word : UInt64) : Option UInt32 :=
  if word.toUInt32.toUInt64 = word then some word.toUInt32 else none

/-- Piece `index` of the nonce space cut into `count` pieces, if no product or sum wraps around, the
start keeps its digits, and the bounds are those of a range. -/
def pieceInWords? (count index : UInt64) : Option NonceRange := do
  let space := UInt64.ofNat nonceSpace
  let stride := space / count
  let first ← product? index stride
  let next ← sum? index 1
  let stop ← (if next = count then some space else sum? first stride)
  let start ← nonce? first
  ofBounds? start stop.toNat

section Words

variable {left right word : UInt64} {number other : Nat}

theorem product?_of_lt (isLeft : left.toNat = number) (isRight : right.toNat = other)
    (fits : number * other < UInt64.size) :
    ∃ product, product? left right = some product ∧ product.toNat = number * other := by
  subst isLeft isRight
  refine ⟨left * right, if_pos fits, ?_⟩
  rw [UInt64.toNat_mul]
  exact Nat.mod_eq_of_lt fits

theorem sum?_of_lt (isLeft : left.toNat = number) (isRight : right.toNat = other)
    (fits : number + other < UInt64.size) :
    ∃ sum, sum? left right = some sum ∧ sum.toNat = number + other := by
  subst isLeft isRight
  refine ⟨left + right, if_pos fits, ?_⟩
  rw [UInt64.toNat_add]
  exact Nat.mod_eq_of_lt fits

theorem nonce?_of_lt (fits : word.toNat < nonceSpace) :
    ∃ nonce, nonce? word = some nonce ∧ nonce.toNat = word.toNat := by
  have kept : word.toUInt32.toNat = word.toNat := by
    rw [UInt64.toNat_toUInt32]
    exact Nat.mod_eq_of_lt fits
  refine ⟨word.toUInt32, if_pos ?_, kept⟩
  rw [← UInt64.toNat_inj, UInt32.toNat_toUInt64, kept]

theorem toNat_ofNat_of_le (atMost : number ≤ nonceSpace) :
    (UInt64.ofNat number).toNat = number := by
  have space : nonceSpace < UInt64.size := by decide
  exact UInt64.toNat_ofNat'.trans (Nat.mod_eq_of_lt (atMost.trans_lt space))

theorem ofBounds?_eq_some {range : NonceRange} {start : UInt32} {stop : Nat}
    (starts : start.toNat = range.start.toNat) (stops : stop = range.stop) :
    ofBounds? start stop = some range := by
  obtain rfl := UInt32.toNat_inj.mp starts
  subst stops
  exact dif_pos ⟨range.ordered, range.bounded⟩

end Words

/-- No step that leads to the bounds of a piece loses anything. -/
theorem pieceInWords?_eq_some {count : Nat} (atMost : count ≤ nonceSpace) (index : Fin count) :
    pieceInWords? (.ofNat count) (.ofNat index) = some (piece count atMost index) := by
  have space : nonceSpace < UInt64.size := by decide
  have countWord := toNat_ofNat_of_le atMost
  have indexWord := toNat_ofNat_of_le (index.isLt.le.trans atMost)
  have spaceWord := toNat_ofNat_of_le (Nat.le_refl nonceSpace)
  have strideWord : (UInt64.ofNat nonceSpace / UInt64.ofNat count).toNat = nonceSpace / count := by
    rw [UInt64.toNat_div, spaceWord, countWord]
  have starts := toNat_start_piece atMost index
  have stops := stop_piece atMost index
  rw [cut, if_neg index.isLt.ne] at starts
  rw [cut] at stops
  have next : (index + 1) * (nonceSpace / count) =
      index * (nonceSpace / count) + nonceSpace / count := Nat.succ_mul _ _
  have room : (index + 1) * (nonceSpace / count) ≤ nonceSpace :=
    (Nat.mul_le_mul_right _ index.isLt).trans (Nat.mul_div_le _ _)
  have inside : index * (nonceSpace / count) < nonceSpace := starts ▸ UInt32.toNat_lt _
  generalize nonceSpace / count = stride at *
  obtain ⟨first, isFirst, firstEq⟩ := product?_of_lt indexWord strideWord (by omega)
  obtain ⟨after, isAfter, afterEq⟩ := sum?_of_lt indexWord UInt64.toNat_one (by omega)
  obtain ⟨stop, isStop, stopEq⟩ : ∃ stop,
      (if after = .ofNat count then some (UInt64.ofNat nonceSpace)
        else sum? first (.ofNat nonceSpace / .ofNat count)) = some stop ∧
      stop.toNat = (piece count atMost index).stop := by
    have isLast : after = .ofNat count ↔ index + 1 = count := by
      rw [← UInt64.toNat_inj, afterEq, countWord]
    by_cases last : index + 1 = count
    · refine ⟨.ofNat nonceSpace, if_pos (isLast.mpr last), ?_⟩
      rw [spaceWord, stops, if_pos last]
    · obtain ⟨stop, isStop, stopEq⟩ := sum?_of_lt firstEq strideWord (by omega)
      refine ⟨stop, (if_neg (mt isLast.mp last)).trans isStop, ?_⟩
      rw [stopEq, stops, if_neg last, next]
  obtain ⟨start, isStart, startEq⟩ := nonce?_of_lt (firstEq.symm ▸ inside)
  have bounds : ofBounds? start stop.toNat = some (piece count atMost index) :=
    ofBounds?_eq_some (by rw [startEq, firstEq, starts]) stopEq
  rw [pieceInWords?]
  simp only [isFirst, isAfter, isStop, isStart, bounds, Option.bind_eq_bind, Option.bind_some]

/-- The ranges for any number of workers cut up the nonce space.  There are as many as workers, but
no more than nonces.  All are equally long, except that the last one also takes what the division
leaves over, and the words in which their bounds are computed lose nothing. -/
theorem partition_cuts_evenly {workers : Nat} (positive : 0 < workers) :
    (partition workers).length = min workers nonceSpace ∧
      CutUp (partition workers) ∧
      ∀ index (inside : index < (partition workers).length),
        (partition workers)[index].length =
          nonceSpace / min workers nonceSpace +
            (if index + 1 = min workers nonceSpace then nonceSpace % min workers nonceSpace
              else 0) ∧
        pieceInWords? (.ofNat (min workers nonceSpace)) (.ofNat index) =
          some (partition workers)[index] := by
  refine ⟨length_partition, partition_cutUp positive, ?_⟩
  intro index inside
  constructor
  · exact length_partition_piece inside
  · have within : index < min workers nonceSpace := length_partition ▸ inside
    rw [pieceInWords?_eq_some (Nat.min_le_right _ _) ⟨index, within⟩]
    simp only [partition, List.getElem_ofFn]

/-- With more workers than nonces, each of the first so many workers gets one nonce. -/
theorem partition_cuts_evenly_crowd :
    0 < 5000000000 ∧
      (partition 5000000000).length = 4294967296 ∧
      CutUp (partition 5000000000) ∧
      (partition 5000000000)[4294967295]?.map length = some 1 := by
  have positive : 0 < 5000000000 := by decide
  obtain ⟨size, cutUp, pieces⟩ := partition_cuts_evenly positive
  have count : min 5000000000 nonceSpace = 4294967296 := by decide
  rw [count] at size
  refine ⟨positive, size, cutUp, ?_⟩
  have inside : 4294967295 < (partition 5000000000).length := by omega
  rw [List.getElem?_eq_getElem inside, Option.map_some, (pieces 4294967295 inside).1, count]
  decide

/-- The last of three workers gets the nonce that is left over. -/
example : (partition 3).map length = [1431655765, 1431655765, 1431655766] := by decide

end StratumMiner.NonceRange
