import StratumMiner.Json.Writer
import StratumMiner.Text.Hex

/-!
# Subscriptions

A pool gives each of its miners a first extranonce and tells how many bytes the second one has. It
does so in answer to a subscription, and may do so again at any time.
-/

namespace StratumMiner

/-- The extranonces that a pool has handed out. -/
structure Subscription where
  extranonce1 : Bytes
  /-- The length of the second extranonce in bytes. -/
  size : Nat
  notEmpty : 1 ≤ size
  atMostEight : size ≤ 8
  deriving Repr, DecidableEq

namespace Subscription

/-- Why two values are no subscription. -/
inductive Fault where
  | notString
  | notHex
  | sizeOutside (size : Json)
  deriving Repr

/-- The wording of a fault. -/
def Fault.message : Fault → String
  | .notString => "extranonce1 not a string"
  | .notHex => "extranonce1 not hex"
  | .sizeOutside size => "extranonce2_size " ++ size.text ++ " not in 1..=8"

/-- The size that a value gives. -/
def readSize (extranonce1 : Bytes) (size : Json) : Except Fault Subscription :=
  match size with
  | .number (.natural number) =>
      if valid : 1 ≤ number.toNat ∧ number.toNat ≤ 8 then
        .ok { extranonce1, size := number.toNat, notEmpty := valid.1, atMostEight := valid.2 }
      else .error (.sizeOutside size)
  | size => .error (.sizeOutside size)

/-- The subscription that two values describe; the extranonce is looked at first. -/
def read (extranonce1 size : Json) : Except Fault Subscription :=
  match extranonce1 with
  | .string text =>
      match Hex.decode text with
      | .ok bytes => readSize bytes size
      | .error _ => .error .notHex
  | _ => .error .notString

end Subscription

end StratumMiner
