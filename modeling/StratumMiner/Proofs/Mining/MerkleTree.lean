import Mathlib
import StratumMiner.Mining.Work

/-!
# The tree above the transactions of a block

The hashes of a block's transactions are the leaves of a tree that is built row by row up to its
root.  The coinbase is the leftmost leaf.  A pool that knows the other leaves can tell the right
neighbour of the leftmost node in each row, whatever the coinbase will be, and the root is folded up
from these for each coinbase that a miner puts together.
-/

namespace StratumMiner

namespace Merkle

/-- The row above a row of nodes.  Neighbours are taken in pairs, and a last node without a
neighbour is paired with itself. -/
def parents : List Bytes32 → List Bytes32
  | [] => []
  | [last] => [node last last]
  | left :: right :: nodes => node left right :: parents nodes

theorem length_parents : ∀ row : List Bytes32, (parents row).length = (row.length + 1) / 2 := by
  intro row
  induction row using parents.induct with
  | case1 => rfl
  | case2 last => simp [parents]
  | case3 left right nodes ih =>
      rw [parents, List.length_cons, ih, List.length_cons, List.length_cons]
      omega

/-- A node of the row above is the one over the two nodes below it, the left one of which stands in
for a right one that is missing. -/
theorem getElem?_parents : ∀ (row : List Bytes32) (index : Nat),
    (parents row)[index]? =
      row[2 * index]?.map fun left => node left (row[2 * index + 1]?.getD left) := by
  intro row
  induction row using parents.induct with
  | case1 =>
      intro index
      simp [parents]
  | case2 last =>
      intro index
      cases index with
      | zero => simp [parents]
      | succ index => simp [parents, Nat.mul_succ]
  | case3 left right nodes ih =>
      intro index
      cases index with
      | zero => simp [parents]
      | succ index =>
          rw [parents, List.getElem?_cons_succ, ih, Nat.mul_succ]
          rfl

/-- The rows of the tree above a row of leaves, from the leaves up.  A row of one node is the
last. -/
def rows (row : List Bytes32) : List (List Bytes32) :=
  if 2 ≤ row.length then row :: rows (parents row) else [row]
termination_by row.length
decreasing_by
  rw [length_parents]
  omega

/-- The right neighbours of the leftmost nodes, in each row that has more than one node, from the
leaves up. -/
def rightNeighbours (leaves : List Bytes32) : List Bytes32 :=
  (rows leaves).filterMap fun row => row[1]?

/-- One row lies below another: it has several nodes, and the other one holds a node over each pair
of them, and over the last one by itself if it has no neighbour. -/
def Below (row above : List Bytes32) : Prop :=
  2 ≤ row.length ∧ ∀ index : Nat,
    above[index]? = row[2 * index]?.map fun left => node left (row[2 * index + 1]?.getD left)

/-- The rows lead from the leaves up to one node. -/
structure IsTree (leaves : List Bytes32) (rows : List (List Bytes32)) (top : Bytes32) : Prop where
  bottom : rows.head? = some leaves
  builtUp : rows.IsChain Below
  top : rows.getLast? = some [top]

variable (leaf left right : Bytes32) (nodes others : List Bytes32)

theorem rows_singleton : rows [leaf] = [[leaf]] := by
  rw [rows]
  exact if_neg (by simp)

theorem rows_cons_cons : rows (left :: right :: nodes) =
    (left :: right :: nodes) :: rows (node left right :: parents nodes) := by
  rw [rows, if_pos (by simp), parents]

theorem rightNeighbours_singleton : rightNeighbours [leaf] = [] := by
  rw [rightNeighbours, rows_singleton]
  rfl

theorem rightNeighbours_cons_cons : rightNeighbours (left :: right :: nodes) =
    right :: rightNeighbours (node left right :: parents nodes) := by
  rw [rightNeighbours, rows_cons_cons, List.filterMap_cons]
  rfl

theorem head?_rows (row : List Bytes32) : (rows row).head? = some row := by
  rw [rows]
  split <;> rfl

theorem isChain_rows (row : List Bytes32) : (rows row).IsChain Below := by
  induction row using rows.induct with
  | case1 row several ih =>
      rw [rows, if_pos several, List.isChain_cons, head?_rows]
      refine ⟨?_, ih⟩
      intro above isAbove
      cases isAbove
      exact ⟨several, getElem?_parents row⟩
  | case2 row single =>
      rw [rows, if_neg single]
      exact .singleton row

/-- Induction on what stands beside the leftmost node of a row.  In the row above, that is the row
above what stands beside the first two. -/
theorem climb {motive : List Bytes32 → Prop} (alone : motive [])
    (beside : ∀ right nodes, motive (parents nodes) → motive (right :: nodes)) :
    ∀ others, motive others := by
  intro others
  induction size : others.length using Nat.strong_induction_on generalizing others with
  | _ bound ih =>
      cases others with
      | nil => exact alone
      | cons right nodes =>
          apply beside
          apply ih (parents nodes).length _ _ rfl
          rw [length_parents, ← size, List.length_cons]
          omega

/-- The right neighbours depend on the other leaves alone. -/
theorem rightNeighbours_congr (leaf other : Bytes32) :
    rightNeighbours (leaf :: others) = rightNeighbours (other :: others) := by
  induction others using climb generalizing leaf other with
  | alone => rw [rightNeighbours_singleton, rightNeighbours_singleton]
  | beside right nodes ih =>
      rw [rightNeighbours_cons_cons, rightNeighbours_cons_cons,
        ih (node leaf right) (node other right)]

/-- The last row holds the root alone, folded up from the leftmost leaf: the fold goes on with the
first node of the row above. -/
theorem getLast?_rows :
    (rows (leaf :: others)).getLast? = some [root leaf (rightNeighbours (leaf :: others))] := by
  induction others using climb generalizing leaf with
  | alone =>
      rw [rows_singleton, rightNeighbours_singleton]
      rfl
  | beside right nodes ih =>
      have above := ih (node leaf right)
      rw [rows_cons_cons, rightNeighbours_cons_cons, root, List.foldl_cons, ← root, ← above]
      apply List.getLast?_cons_of_ne_nil
      intro empty
      have first := head?_rows (node leaf right :: parents nodes)
      rw [empty] at first
      cases first

theorem isTree_rows : IsTree (leaf :: others) (rows (leaf :: others))
    (root leaf (rightNeighbours (leaf :: others))) :=
  ⟨head?_rows _, isChain_rows _, getLast?_rows leaf others⟩

/-- The row above a row is determined node by node, so there is one tree over the leaves. -/
theorem IsTree.eq_rows {leaves : List Bytes32} {tree : List (List Bytes32)} {top : Bytes32}
    (isTree : IsTree leaves tree top) : tree = rows leaves := by
  obtain ⟨bottom, builtUp, last⟩ := isTree
  induction tree generalizing leaves with
  | nil => cases bottom
  | cons row tree ih =>
      cases bottom
      cases tree with
      | nil =>
          cases last
          exact (rows_singleton top).symm
      | cons above tree =>
          rw [List.isChain_cons_cons] at builtUp
          obtain ⟨⟨several, nodes⟩, builtUp⟩ := builtUp
          obtain rfl : above = parents row := by
            apply List.ext_getElem?
            intro index
            rw [nodes, getElem?_parents]
          rw [List.getLast?_cons_cons] at last
          rw [rows, if_pos several, ih rfl builtUp last]

/-- There is one tree that is built up row by row from the leaves, and folding the right neighbours
of its leftmost nodes into the first leaf comes to the node on its top. -/
theorem isTree_iff_root (tree : List (List Bytes32)) (top : Bytes32) :
    IsTree (leaf :: others) tree top ↔
      tree = rows (leaf :: others) ∧ top = root leaf (rightNeighbours (leaf :: others)) := by
  have built := isTree_rows leaf others
  constructor
  · intro isTree
    obtain rfl := isTree.eq_rows
    have same := isTree.top.symm.trans built.top
    cases same
    exact ⟨rfl, rfl⟩
  · rintro ⟨rfl, rfl⟩
    exact built

end Merkle

/-- Work has the Merkle root of the block that it is for, if the pool has told the branches from the
other transactions of the block.  What it has taken for the coinbase meanwhile does not matter. -/
theorem Work.isTree_merkleRoot {work : Work} {extranonce1 : Bytes} {extranonce2 : Extranonce2}
    {placeholder : Bytes32} {others : List Bytes32}
    (source : work.source = .computed extranonce1 extranonce2)
    (branches : work.job.branches = Merkle.rightNeighbours (placeholder :: others)) :
    let coinbase := Merkle.coinbaseHash work.job.coinbase1 extranonce1 extranonce2.toBytes
      work.job.coinbase2
    Merkle.IsTree (coinbase :: others) (Merkle.rows (coinbase :: others)) work.merkleRoot := by
  intro coinbase
  have built := Merkle.isTree_rows coinbase others
  rw [Merkle.rightNeighbours_congr others coinbase placeholder, ← branches] at built
  simpa only [merkleRoot, source] using built

end StratumMiner
