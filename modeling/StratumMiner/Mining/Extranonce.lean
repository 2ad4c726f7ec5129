import StratumMiner.Text.Hex

/-!
# The second extranonce

The part of the coinbase that the miner chooses is a counter of one to eight bytes, written least
significant byte first. After the largest value that fits comes zero again.
-/

namespace StratumMiner

/-- A counter of `size` bytes. -/
structure Extranonce2 where
  value : Nat
  size : Nat
  sizeValid : 1 ≤ size ∧ size ≤ 8
  fits : value < Nat.pow 256 size
  deriving Repr, DecidableEq

namespace Extranonce2

/-- Why there is no such counter. -/
inductive Fault where
  /-- The size is not between one and eight. -/
  | sizeOutside (size : Nat)
  /-- The value does not fit the size. -/
  | overflow (value size : Nat)
  deriving Repr, DecidableEq

/-- The wording of a fault. -/
def Fault.message : Fault → String
  | .sizeOutside size => "extranonce2 size " ++ toString size ++ " outside 1..=8"
  | .overflow value size =>
      "extranonce2 value 0x" ++ Hex.ofNat value ++ " does not fit in " ++ toString size ++ " bytes"

/-- The counter at a value, if size and value allow it; the size is looked at first. -/
def make (value size : Nat) : Except Fault Extranonce2 :=
  if sizeValid : 1 ≤ size ∧ size ≤ 8 then
    if fits : value < Nat.pow 256 size then .ok ⟨value, size, sizeValid, fits⟩
    else .error (.overflow value size)
  else .error (.sizeOutside size)

/-- The following value; zero follows the largest. -/
def next (counter : Extranonce2) : Extranonce2 :=
  if fits : counter.value + 1 < Nat.pow 256 counter.size then
    { counter with value := counter.value + 1, fits }
  else
    { counter with value := 0, fits := Nat.pow_pos (by decide) }

/-- The bytes placed in the coinbase. -/
def toBytes (counter : Extranonce2) : Bytes :=
  Bytes.ofNatLE counter.size counter.value

/-- The hexadecimal digits of the bytes, as sent to the pool. -/
def display (counter : Extranonce2) : String :=
  Hex.encode counter.toBytes

end Extranonce2

end StratumMiner
