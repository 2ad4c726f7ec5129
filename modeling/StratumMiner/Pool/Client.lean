import StratumMiner.Pool.ClientLog
import StratumMiner.Pool.Event
import StratumMiner.Pool.Message
import StratumMiner.Pool.Submission

/-!
# The conversation with a pool

The client subscribes, authorizes its user and then mines: shares go out as requests, and answers
come back under the ids of those requests, in any order. Notifications are taken at all times; what
cannot be used is reported and left out.

The client is a value. A step takes one input at a moment of time and gives the next client with
what is to be done, in order: events for the miner, messages for the pool and reports. While it is
being let in, the client gives up when an answer is not there in time; once mining, it looks every
thirty seconds for shares that were never answered and forgets those that have waited too long.
-/

namespace StratumMiner

/-- How to reach a pool, and as whom. -/
structure PoolSettings where
  url : String
  username : String
  password : String
  userAgent : String
  /-- How long to wait for a connection and for each answer while being let in, in seconds. -/
  connectTimeout : Nat
  deriving Repr, DecidableEq

namespace PoolSettings

/-- The name by which the miner introduces itself. -/
def defaultUserAgent : String := "cpuminer/0.1.0"

/-- The seconds to wait when nothing else is said. -/
def defaultConnectTimeout : Nat := 10

end PoolSettings

/-- A moment, in nanoseconds since an arbitrary beginning. -/
abbrev Instant := Nat

/-- The nanoseconds in a number of seconds. -/
def inSeconds (seconds : Nat) : Nat :=
  seconds * 1000000000

/-- A share that the pool has not answered yet. -/
structure PendingShare where
  id : UInt64
  jobId : String
  nonce : UInt32
  sentAt : Instant
  deriving Repr, DecidableEq

/-- What a client is doing. -/
inductive ClientPhase where
  /-- There is no connection yet. -/
  | unconnected
  /-- Waiting for the answer to the subscription with this id. -/
  | subscribing (id : UInt64)
  /-- Waiting for the answer to the authorization with this id. -/
  | authorizing (id : UInt64)
  | mining
  /-- The conversation is over, for a fault or on demand. -/
  | ended (fault : Option PoolFault)
  deriving Repr

/-- One side of the conversation with a pool. -/
structure Client where
  settings : PoolSettings
  phase : ClientPhase
  stage : PoolStage
  nextId : UInt64
  subscription : Option Subscription
  /-- The shares without an answer, oldest first. -/
  pending : List PendingShare
  /-- When the client wants to be woken. -/
  due : Instant
  deriving Repr

namespace Client

/-- What a client is told. -/
inductive Input where
  | message (message : Message)
  /-- A line from the pool was no message. -/
  | malformed (detail : String)
  /-- The pool closed the connection. -/
  | closed
  | submit (submission : Submission)
  /-- Time has passed. -/
  | wake
  | shutdown
  deriving Repr

/-- What a client wants done. -/
inductive Effect where
  | emit (event : PoolEvent)
  | write (message : Message)
  | note (note : ClientNote)
  deriving Repr

/-- How long a share may wait for its answer, in seconds. -/
def answerTimeout : Nat := 120

/-- How often unanswered shares are looked for, in seconds. -/
def pruneInterval : Nat := 30

/-- Go to another stage. -/
def enter (client : Client) (stage : PoolStage) : Client × List Effect :=
  ({ client with stage },
    if client.stage = stage then [] else [.note (.stageChanged client.stage stage)])

/-- Leave the conversation. -/
def finish (client : Client) (fault : Option PoolFault) : Client × List Effect :=
  let (client, effects) := client.enter .disconnected
  ({ client with phase := .ended fault }, effects ++ [.emit .disconnected])

/-- The next request. -/
def request (client : Client) (method : String) (params : Json) : Client × Effect :=
  ({ client with nextId := client.nextId + 1 },
    .write (.request client.nextId method params))

/-- The moment at which patience with an answer ends. -/
def patience (client : Client) (now : Instant) : Instant :=
  now + inSeconds client.settings.connectTimeout

/-- A client that has not connected yet. -/
def unconnected (settings : PoolSettings) : Client :=
  { settings, phase := .unconnected, stage := .disconnected, nextId := 1, subscription := none,
    pending := [], due := 0 }

/-- Begin to connect. -/
def connect (client : Client) : Client × List Effect :=
  client.enter .connecting

/-- No connection came about. -/
def abandon (client : Client) (fault : PoolFault) : Client × List Effect :=
  let (client, effects) := client.enter .disconnected
  ({ client with phase := .ended (some fault) }, effects)

/-- The miner stopped before a connection came about. -/
def withdraw (client : Client) : Client :=
  { client with phase := .ended none }

/-- Begin the conversation over a new connection. -/
def start (client : Client) (now : Instant) : Client × List Effect :=
  let (client, entered) := client.enter .connecting
  let id := client.nextId
  let (client, write) :=
    client.request "mining.subscribe" (.array [.string client.settings.userAgent])
  ({ client with phase := .subscribing id, due := client.patience now }, entered ++ [write])

/-! ## Notifications -/

/-- What a notification does. -/
inductive Reaction where
  | effects (client : Client) (effects : List Effect)
  | failed (fault : NotificationFault)
  | reconnect
  deriving Repr

/-- A new job. -/
def receiveJob (client : Client) (params : Json) : Reaction :=
  match params with
  | .array values =>
      match Job.ofNotice values with
      | .ok job => .effects client [.note (.jobReceived job.id job.clean), .emit (.newJob job)]
      | .error fault => .failed (.badJob fault)
  | _ => .failed .jobNotArray

/-- A new difficulty. -/
def receiveDifficulty (client : Client) (params : Json) : Reaction :=
  let value? :=
    match params with
    | .array (value :: _) => value.double?
    | _ => none
  match value? with
  | none => .failed (.badDifficulty params)
  | some value =>
      match PoolDifficulty.ofDouble? value with
      | none => .failed (.unusableDifficulty value)
      | some difficulty =>
          .effects client
            [.note (.difficultyReceived difficulty), .emit (.difficultyChanged difficulty)]

/-- New extranonces. -/
def receiveExtranonce (client : Client) (params : Json) : Reaction :=
  match params with
  | .array (extranonce1 :: size :: _) =>
      match Subscription.read extranonce1 size with
      | .error fault => .failed (.subscription fault)
      | .ok subscription =>
          .effects { client with subscription := some subscription }
            [.note (.extranonceReceived subscription), .emit (.extranonceChanged subscription)]
  | params => .failed (.badExtranonce params)

/-- A notification from the pool. -/
def notified (client : Client) (method : String) (params : Json) : Reaction :=
  if method = "mining.notify" then client.receiveJob params
  else if method = "mining.set_difficulty" then client.receiveDifficulty params
  else if method = "mining.set_extranonce" then client.receiveExtranonce params
  else if method = "client.reconnect" then .reconnect
  else if method = "client.show_message" then .effects client [.note (.poolMessage params)]
  else .effects client [.note (.unknownMethod method)]

/-- Take a notification, with the report in case that it cannot be used. -/
def takeNotification (client : Client) (method : String) (params : Json)
    (report : NotificationFault → ClientNote) : Client × List Effect :=
  match client.notified method params with
  | .effects client effects => (client, effects)
  | .failed fault => (client, [.note (report fault)])
  | .reconnect => client.finish (some .reconnectRequested)

/-! ## Being let in -/

/-- The subscription in the answer to the request for one. -/
def readSubscription (result error : Option Json) : Except PoolFault Subscription :=
  match result, error with
  | _, some error => .error (.subscriptionFailed (.reason error.reason))
  | none, none => .error .unexpectedResponse
  | some (.array (_ :: extranonce1 :: size :: _)), none =>
      match Subscription.read extranonce1 size with
      | .ok subscription => .ok subscription
      | .error fault => .error (.subscriptionFailed (.subscription fault))
  | some (.array _), none => .error (.subscriptionFailed .tooShort)
  | some _, none => .error (.subscriptionFailed .notArray)

/-- The fault in the answer to an authorization, if it is not granted. -/
def authorizationFault? (result error : Option Json) : Option PoolFault :=
  match result, error with
  | _, some error => some (.authorizationFailed (.reason error.reason))
  | some (.bool true), none => none
  | _, none => some (.authorizationFailed .denied)

/-- The pool granted a subscription: ask for authorization. -/
def subscribed (now : Instant) (client : Client) (subscription : Subscription) :
    Client × List Effect :=
  let (client, entered) := { client with subscription := some subscription }.enter .subscribed
  let id := client.nextId
  let (client, write) :=
    client.request "mining.authorize"
      (.array [.string client.settings.username, .string client.settings.password])
  ({ client with phase := .authorizing id, due := client.patience now },
    entered ++
      [.note (.subscribed client.settings.url subscription), .emit (.subscribed subscription),
        write])

/-- The pool authorized the user: mining begins. -/
def authorized (now : Instant) (client : Client) : Client × List Effect :=
  let (client, authorized) := client.enter .authorized
  let (client, mining) := client.enter .mining
  ({ client with phase := .mining, due := now + inSeconds pruneInterval },
    authorized ++ [.note (.authorized client.settings.username), .emit .authorized] ++ mining)

/-- An input while the answer to request `id` is awaited. -/
def stepSetup (now : Instant) (client : Client) (id : UInt64)
    (answered : (result error : Option Json) → Client × List Effect) :
    Input → Client × List Effect
  | .message (.response other result error) =>
      if other = id then answered result error
      else (client, [.note (.setupOtherResponse other)])
  | .message (.notification method params) =>
      client.takeNotification method params .setupNotificationFailed
  | .message (.request _ method _) => (client, [.note (.setupRequest method)])
  | .malformed detail => (client, [.note (.setupMalformed detail)])
  | .closed | .shutdown => client.finish (some .disconnected)
  | .wake => if client.due ≤ now then client.finish (some .timeout) else (client, [])
  | .submit _ => (client, [])

/-! ## Mining -/

/-- Hand in a share. -/
def submit (now : Instant) (client : Client) (submission : Submission) : Client × List Effect :=
  let pending : PendingShare :=
    { id := client.nextId, jobId := submission.jobId, nonce := submission.nonce, sentAt := now }
  let (client, write) := client.request "mining.submit" submission.toJson
  ({ client with pending := client.pending ++ [pending] },
    [.note (.submitting submission.jobId submission.nonce), write])

/-- What the answer to a share means. -/
def verdict (share : PendingShare) (latency : Duration) (result error : Option Json) : PoolEvent :=
  match result, error with
  | some (.bool true), none => .shareAccepted share.jobId share.nonce latency
  | _, some error => .shareRejected share.jobId share.nonce error.reason latency
  | _, none => .shareRejected share.jobId share.nonce "rejected" latency

/-- An answer from the pool. -/
def receiveAnswer (now : Instant) (client : Client) (id : UInt64) (result error : Option Json) :
    Client × List Effect :=
  match client.pending.find? fun share => share.id == id with
  | none => (client, [.note (.unknownResponse id)])
  | some share =>
      let pending := client.pending.filter fun share => share.id != id
      ({ client with pending },
        [.emit (verdict share (Duration.clamp (now - share.sentAt)) result error)])

/-- Whether a share has waited too long for its answer. -/
def isForgotten (now : Instant) (share : PendingShare) : Bool :=
  inSeconds answerTimeout ≤ now - share.sentAt

/-- Forget the shares that have waited too long. -/
def prune (now : Instant) (client : Client) : Client × List Effect :=
  ({ client with
      pending := client.pending.filter fun share => !isForgotten now share
      due := now + inSeconds pruneInterval },
    (client.pending.filter fun share => isForgotten now share).map fun share =>
      .note (.unanswered share.id share.jobId))

/-- An input while mining. -/
def stepMining (now : Instant) (client : Client) : Input → Client × List Effect
  | .message (.response id result error) => client.receiveAnswer now id result error
  | .message (.notification method params) =>
      client.takeNotification method params (.notificationFailed method)
  | .message (.request _ method _) => (client, [.note (.request method)])
  | .malformed detail => (client, [.note (.malformed detail)])
  | .closed =>
      let (client', effects) := client.finish (some .disconnected)
      (client', .note (.closedByPool client.settings.url) :: effects)
  | .shutdown =>
      let (client, effects) := client.finish none
      (client, .note .shutdownRequested :: effects)
  | .wake => if client.due ≤ now then client.prune now else (client, [])
  | .submit submission => client.submit now submission

/-! ## Steps -/

/-- The next client and what it wants done, for one input. -/
def step (now : Instant) (client : Client) (input : Input) : Client × List Effect :=
  match client.phase with
  | .unconnected | .ended _ => (client, [])
  | .subscribing id =>
      client.stepSetup now id
        (fun result error =>
          match readSubscription result error with
          | .ok subscription => client.subscribed now subscription
          | .error fault => client.finish (some fault))
        input
  | .authorizing id =>
      client.stepSetup now id
        (fun result error =>
          match authorizationFault? result error with
          | none => client.authorized now
          | some fault => client.finish (some fault))
        input
  | .mining => client.stepMining now input

/-- Whether the client takes shares. -/
def takesShares (client : Client) : Bool :=
  match client.phase with
  | .mining => true
  | _ => false

/-- Whether the conversation is over, and the fault if there was one. -/
def outcome? (client : Client) : Option (Option PoolFault) :=
  match client.phase with
  | .ended fault => some fault
  | _ => none

/-- Nobody listens to the events any more. -/
def unheard (client : Client) : Client × List Effect :=
  match client.phase with
  | .ended _ => (client, [])
  | _ => client.finish (some .disconnected)

end Client

end StratumMiner
