import Mathlib
import StratumMiner.Mining.Work

/-!
# What a Merkle root tells apart

A root is folded up from a leaf and its right neighbours, and each step hashes two nodes side by
side.  Two computations with equally many steps that come to the same root either started from the
same nodes, or at some step they hash two different strings to the same digest.  Nothing is assumed
of the hash function: the two strings are those of the computations.
-/

namespace StratumMiner

/-- At the same step of two computations, different strings are hashed to the same digest. -/
def Collide (strings others : List Bytes) : Prop :=
  ∃ (index : Nat) (string other : Bytes), strings[index]? = some string ∧
    others[index]? = some other ∧ string ≠ other ∧
      Sha256.hashTwice string = Sha256.hashTwice other

namespace Collide

variable {string other : Bytes} {strings others : List Bytes}

theorem head (different : string ≠ other)
    (same : Sha256.hashTwice string = Sha256.hashTwice other) :
    Collide (string :: strings) (other :: others) :=
  ⟨0, string, other, rfl, rfl, different, same⟩

theorem tail (collide : Collide strings others) :
    Collide (string :: strings) (other :: others) := by
  obtain ⟨index, first, second, inFirst, inSecond, different, same⟩ := collide
  exact ⟨index + 1, first, second, inFirst, inSecond, different, same⟩

end Collide

namespace Merkle

/-- The strings that are hashed on the way from a leaf to the root. -/
def hashed (leaf : Bytes32) : List Bytes32 → List Bytes
  | [] => []
  | branch :: branches => (leaf.toList ++ branch.toList) :: hashed (node leaf branch) branches

/-- Two nodes side by side tell which they are. -/
theorem pair_inj {left right otherLeft otherRight : Bytes32}
    (same : left.toList ++ right.toList = otherLeft.toList ++ otherRight.toList) :
    left = otherLeft ∧ right = otherRight := by
  have length : left.toList.length = otherLeft.toList.length := by simp
  obtain ⟨leftSame, rightSame⟩ := List.append_inj same length
  exact ⟨Vector.toList_inj.mp leftSame, Vector.toList_inj.mp rightSame⟩

/-- The root tells the leaf and its right neighbours, unless two strings collide. -/
theorem root_binds {leaf other : Bytes32} {branches others : List Bytes32}
    (steps : branches.length = others.length) (same : root leaf branches = root other others) :
    (leaf = other ∧ branches = others) ∨ Collide (hashed leaf branches) (hashed other others) := by
  induction branches generalizing leaf other others with
  | nil =>
      obtain rfl := List.eq_nil_of_length_eq_zero steps.symm
      exact .inl ⟨same, rfl⟩
  | cons branch branches ih =>
      cases others with
      | nil => simp at steps
      | cons otherBranch others =>
          have fewer : branches.length = others.length := Nat.succ_injective steps
          rcases ih fewer same with ⟨nodes, rfl⟩ | collide
          · by_cases strings : leaf.toList ++ branch.toList = other.toList ++ otherBranch.toList
            · obtain ⟨rfl, rfl⟩ := pair_inj strings
              exact .inl ⟨rfl, rfl⟩
            · exact .inr (.head strings nodes)
          · exact .inr collide.tail

theorem length_of_mem_hashed {leaf : Bytes32} {branches : List Bytes32} {string : Bytes}
    (member : string ∈ hashed leaf branches) : string.length = 64 := by
  induction branches generalizing leaf with
  | nil => cases member
  | cons branch branches ih =>
      rcases List.mem_cons.mp member with rfl | member
      · simp
      · exact ih member

/-- Among the pairs of nodes that are hashed on the way to two roots, two strings of sixty-four
bytes differ and have the same digest. -/
def PairsCollide (leaf other : Bytes32) (branches others : List Bytes32) : Prop :=
  ∃ pair ∈ hashed leaf branches, ∃ otherPair ∈ hashed other others,
    pair.length = 64 ∧ otherPair.length = 64 ∧ pair ≠ otherPair ∧
      Sha256.hashTwice pair = Sha256.hashTwice otherPair

theorem pairsCollide_of_collide {leaf other : Bytes32} {branches others : List Bytes32}
    (collide : Collide (hashed leaf branches) (hashed other others)) :
    PairsCollide leaf other branches others := by
  obtain ⟨_, pair, otherPair, isPair, isOther, different, same⟩ := collide
  have member := List.mem_of_getElem? isPair
  have otherMember := List.mem_of_getElem? isOther
  exact ⟨pair, member, otherPair, otherMember, length_of_mem_hashed member,
    length_of_mem_hashed otherMember, different, same⟩

/-- The root binds the leaf, the right neighbours and their order, unless pairs of nodes collide.
So the same neighbours in another order, such as the reverse, lead to another root. -/
theorem root_binds_order (leaf other : Bytes32) {branches others : List Bytes32}
    (steps : branches.length = others.length) :
    (root leaf branches = root other others →
      (leaf = other ∧ branches = others) ∨ PairsCollide leaf other branches others) ∧
    ∀ rearranged : List Bytes32, rearranged.Perm branches → rearranged ≠ branches →
      root leaf rearranged ≠ root leaf branches ∨
        PairsCollide leaf leaf rearranged branches := by
  constructor
  · intro same
    exact (root_binds steps same).imp_right pairsCollide_of_collide
  · intro rearranged perm different
    by_cases same : root leaf rearranged = root leaf branches
    · right
      rcases root_binds perm.length_eq same with ⟨-, unchanged⟩ | collide
      · exact absurd unchanged different
      · exact pairsCollide_of_collide collide
    · exact .inl same

/-- Two right neighbours in either order. -/
theorem root_binds_order_swapped :
    let low : Bytes32 := .replicate 32 1
    let high : Bytes32 := .replicate 32 2
    [high, low].length = [low, high].length ∧
      [high, low].Perm [low, high] ∧ [high, low] ≠ [low, high] ∧
      (root low [high, low] = root high [low, high] →
        PairsCollide low high [high, low] [low, high]) ∧
      (root low [high, low] ≠ root low [low, high] ∨
        PairsCollide low low [high, low] [low, high]) := by
  intro low high
  have steps : [high, low].length = [low, high].length := rfl
  have perm : [high, low].Perm [low, high] := .swap low high []
  have different : [high, low] ≠ [low, high] := by decide
  refine ⟨steps, perm, different, ?_, ?_⟩
  · intro same
    rcases (root_binds_order low high steps).1 same with ⟨-, unchanged⟩ | collide
    · exact absurd unchanged different
    · exact collide
  · exact (root_binds_order low high steps.symm).2 [high, low] perm different

end Merkle

namespace Work

/-- The bytes of the coinbase that has these extranonces. -/
def coinbase (work : Work) (extranonce1 : Bytes) (extranonce2 : Extranonce2) : Bytes :=
  work.job.coinbase1 ++ extranonce1 ++ extranonce2.toBytes ++ work.job.coinbase2

/-- The strings that are hashed for the Merkle root of work: the coinbase, and then two nodes at
each step. -/
def hashed (work : Work) : List Bytes :=
  match work.source with
  | .fixed _ => []
  | .computed extranonce1 extranonce2 =>
      let coinbase := work.coinbase extranonce1 extranonce2
      coinbase :: Merkle.hashed (Sha256.hashTwice coinbase) work.job.branches

variable {work other : Work}

/-- Work with different coinbases and the same right neighbours has different roots, unless two
strings collide. -/
theorem merkleRoot_ne {extranonce1 otherExtranonce1 : Bytes}
    {extranonce2 otherExtranonce2 : Extranonce2}
    (source : work.source = .computed extranonce1 extranonce2)
    (otherSource : other.source = .computed otherExtranonce1 otherExtranonce2)
    (branches : work.job.branches = other.job.branches)
    (different : work.coinbase extranonce1 extranonce2 ≠
      other.coinbase otherExtranonce1 otherExtranonce2) :
    work.merkleRoot ≠ other.merkleRoot ∨ Collide work.hashed other.hashed := by
  by_cases same : work.merkleRoot = other.merkleRoot
  · refine .inr ?_
    simp only [merkleRoot, source, otherSource] at same
    simp only [hashed, source, otherSource]
    rcases Merkle.root_binds (congrArg List.length branches) same with ⟨leaves, -⟩ | collide
    · exact .head different leaves
    · exact collide.tail
  · exact .inl same

end Work

end StratumMiner
