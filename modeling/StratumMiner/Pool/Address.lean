import StratumMiner.Pool.Host

/-!
# Addresses of pools

A pool is named by host and port, with or without a scheme in front and slashes behind. The port
must be a number below `2 ^ 16`. The host need only be there for an address to be one; whether it
can be found shows when the pool is called.
-/

namespace StratumMiner.PoolAddress

/-- The text behind a start, if it begins so. -/
def dropStart? (start : String) (text : List Char) : Option (List Char) :=
  if start.toList.isPrefixOf text then some (text.drop start.toList.length) else none

/-- The text without a scheme. -/
def dropScheme (text : List Char) : List Char :=
  match dropStart? "stratum+tcp://" text with
  | some rest => rest
  | none => (dropStart? "tcp://" text).getD text

/-- The text without slashes at its end. -/
def dropSlashes (text : List Char) : List Char :=
  (text.reverse.dropWhile (· == '/')).reverse

/-- What stands before and after the last colon. -/
def splitPort? (text : List Char) : Option (List Char × List Char) :=
  let reversed := text.reverse
  match reversed.dropWhile (· != ':') with
  | [] => none
  | _ :: host => some (host.reverse, (reversed.takeWhile (· != ':')).reverse)

/-- Whether the text is a port number. -/
def isPort (text : List Char) : Bool :=
  match Digits.parseDecimal 65535 text with
  | .ok _ => true
  | .error _ => false

/-- The host and port that a pool URL names. -/
def ofUrl? (url : String) : Option String :=
  let address := dropSlashes (dropScheme url.toList)
  match splitPort? address with
  | some (host, port) =>
      if !host.isEmpty && isPort port then some (String.ofList address) else none
  | none => none

/-- The host and the port of an address. -/
def endpoint? (address : String) : Option (String × UInt16) :=
  match splitPort? address.toList with
  | some (host, port) =>
      match Digits.parseDecimal 65535 port with
      | .ok number => some (Host.unbracketed (String.ofList host), UInt16.ofNat number)
      | .error _ => none
  | none => none

/-- Whether the pool that a URL names is found without a name service. -/
def isDirect (url : String) : Bool :=
  match (ofUrl? url).bind endpoint? with
  | some (host, _) => Host.isDirect host
  | none => false

end StratumMiner.PoolAddress
