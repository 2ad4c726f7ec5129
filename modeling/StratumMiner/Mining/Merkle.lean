import StratumMiner.Hash.Sha256

/-!
# Merkle roots

A pool hands out the coinbase transaction in two parts with a gap for the extranonces, and the
branches by which the coinbase hash is folded up to the Merkle root. The transaction is hashed as
given, and the branches are applied in the order given, always as right neighbours.
-/

namespace StratumMiner.Merkle

/-- The hash of a coinbase put together from its parts. -/
def coinbaseHash (coinbase1 extranonce1 extranonce2 coinbase2 : Bytes) : Bytes32 :=
  Sha256.hashTwice (coinbase1 ++ extranonce1 ++ extranonce2 ++ coinbase2)

/-- The node above two neighbours. -/
def node (left right : Bytes32) : Bytes32 :=
  Sha256.hashTwice (left.toList ++ right.toList)

/-- The root above a leftmost leaf with these right neighbours, from the leaves up. -/
def root (leaf : Bytes32) (branches : List Bytes32) : Bytes32 :=
  branches.foldl node leaf

end StratumMiner.Merkle
