import StratumMiner.Number.Style
import StratumMiner.Pool.Notice
import StratumMiner.Pool.Subscription

/-!
# What can go wrong with a pool

Some faults end the conversation. Others concern a single notification, which is then left out, and
the conversation goes on.
-/

namespace StratumMiner

/-- What a pool says about an error: the second item of a list or the member `message`, if that is a
string; a bare string; or else the text of the value. -/
def Json.reason : Json → String
  | .array (_ :: .string text :: _) => text
  | .object members =>
      match Json.member? "message" (.object members) with
      | some (.string text) => text
      | _ => Json.text (.object members)
  | .string text => text
  | error => error.text

/-- Why a notification cannot be used. -/
inductive NotificationFault where
  | jobNotArray
  | badJob (fault : Job.NoticeFault)
  | badDifficulty (params : Json)
  | unusableDifficulty (value : Double)
  | badExtranonce (params : Json)
  | subscription (fault : Subscription.Fault)
  deriving Repr

/-- The wording of a fault. -/
def NotificationFault.message : NotificationFault → String
  | .jobNotArray => "mining.notify params not an array"
  | .badJob fault => "Failed to parse job: " ++ fault.message
  | .badDifficulty params => "bad set_difficulty params: " ++ params.text
  | .unusableDifficulty value => "unusable difficulty " ++ value.write .plain
  | .badExtranonce params => "bad set_extranonce params: " ++ params.text
  | .subscription fault => fault.message

/-- Why a pool did not let the miner in. -/
inductive RefusalCause where
  /-- The result of a subscription is no array. -/
  | notArray
  /-- The result of a subscription has fewer than three items. -/
  | tooShort
  | subscription (fault : Subscription.Fault)
  /-- The pool gave a reason. -/
  | reason (text : String)
  /-- The result of an authorization is not `true`. -/
  | denied
  deriving Repr

/-- The wording of a cause. -/
def RefusalCause.message : RefusalCause → String
  | .notArray => "result not an array"
  | .tooShort => "result too short"
  | .subscription fault => fault.message
  | .reason text => text
  | .denied => "Pool returned false"

/-- Why a conversation with a pool ended. -/
inductive PoolFault where
  | connectionFailed (detail : String)
  | subscriptionFailed (cause : RefusalCause)
  | authorizationFailed (cause : RefusalCause)
  /-- The answer to a subscription has neither a result nor an error. -/
  | unexpectedResponse
  | invalidUrl (url : String)
  | reconnectRequested
  | disconnected
  | timeout
  deriving Repr

/-- The wording of a fault. -/
def PoolFault.message : PoolFault → String
  | .connectionFailed detail => "Connection failed: " ++ detail
  | .subscriptionFailed cause => "Subscription failed: " ++ cause.message
  | .authorizationFailed cause => "Authorization failed: " ++ cause.message
  | .unexpectedResponse => "Unexpected response: Invalid subscribe response"
  | .invalidUrl url => "Invalid URL: " ++ url
  | .reconnectRequested => "Pool requested reconnect"
  | .disconnected => "Connection lost"
  | .timeout => "Timeout waiting for pool"

/-- The wording for a message that cannot be used. -/
def invalidMessage (detail : String) : String :=
  "Invalid message format: " ++ detail

end StratumMiner
