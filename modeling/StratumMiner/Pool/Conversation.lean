import StratumMiner.Pool.Address
import StratumMiner.Pool.Client
import StratumMiner.Pool.Connection

/-!
# A client at the end of a byte stream

A conversation joins a client to the bytes that come from its pool. Bytes become lines, lines become
messages, and each message is one step of the client. What a step wants done is carried out in
order: messages for the pool become lines, events go to whoever listens. When nobody does, the first
event ends the conversation.
-/

namespace StratumMiner

/-- A client with its connection. -/
structure Conversation where
  client : Client
  decoder : LineDecoder
  now : Instant
  /-- Whether anybody listens to events. -/
  heard : Bool
  /-- Shares that the client has not taken yet, oldest first. -/
  waiting : List Submission

/-- What a client is told of a line. -/
def Incoming.input (incoming : Incoming) : Client.Input :=
  match incoming.content with
  | .ok message => .message message
  | .error fault => .malformed (Incoming.complaint incoming.line fault)

/-- What can be in the way of a connection. -/
inductive Obstacle where
  /-- The pool cannot be reached, for a reason in words. -/
  | unreachable (detail : String)
  /-- The pool did not answer in time. -/
  | silence
  deriving Repr, DecidableEq

/-- The fault when something is in the way of a connection to an address. -/
def Obstacle.fault (address : String) : Obstacle → PoolFault
  | .unreachable detail => .connectionFailed (address ++ ": " ++ detail)
  | .silence => .timeout

namespace Conversation

/-- What becomes visible of a conversation. -/
inductive Outcome where
  | event (event : PoolEvent)
  /-- A line for the pool, without its newline. -/
  | line (text : String)
  | record (record : LogRecord)
  deriving Repr

/-- The conversation of a client that has not connected yet. -/
def unconnected (settings : PoolSettings) : Conversation :=
  { client := Client.unconnected settings, decoder := LineDecoder.empty maxLineLength, now := 0,
    heard := true, waiting := [] }

/-- Carry out what the client wants done. An event that nobody hears ends the conversation. -/
def perform (heard : Bool) (client : Client) : List Client.Effect → Client × List Outcome
  | [] => (client, [])
  | .note note :: rest =>
      let (client, outcomes) := perform heard client rest
      (client, .record note.record :: outcomes)
  | .write message :: rest =>
      let (client, outcomes) := perform heard client rest
      let text := message.line
      (client, .record (ConnectionNote.sending text).record :: .line text :: outcomes)
  | .emit event :: rest =>
      if heard then
        let (client, outcomes) := perform heard client rest
        (client, .event event :: outcomes)
      else
        let (client, effects) := client.unheard
        (client, effects.filterMap fun effect =>
          match effect with
          | .note note => some (.record note.record)
          | _ => none)

/-- Carry out a step of the client. -/
def carryOut (conversation : Conversation) (next : Client × List Client.Effect) :
    Conversation × List Outcome :=
  let (client, outcomes) := perform conversation.heard next.1 next.2
  ({ conversation with client }, outcomes)

/-- Tell the client something. -/
def tell (conversation : Conversation) (input : Client.Input) : Conversation × List Outcome :=
  conversation.carryOut (conversation.client.step conversation.now input)

/-- Whether the conversation is over. -/
def isOver (conversation : Conversation) : Bool :=
  conversation.client.outcome?.isSome

/-- Do one thing after another. -/
def andThen (first : Conversation × List Outcome)
    (second : Conversation → Conversation × List Outcome) : Conversation × List Outcome :=
  let (conversation, outcomes) := first
  let (conversation, more) := second conversation
  (conversation, outcomes ++ more)

/-- Hand over waiting shares, if the client takes them. -/
def handOver (conversation : Conversation) : List Submission → Conversation × List Outcome
  | [] => ({ conversation with waiting := [] }, [])
  | submission :: rest =>
      if conversation.client.takesShares then
        andThen (conversation.tell (.submit submission)) fun conversation =>
          conversation.handOver rest
      else ({ conversation with waiting := submission :: rest }, [])

/-- Tell the client something and then hand over what it has not taken yet. -/
def proceed (conversation : Conversation) (input : Client.Input) : Conversation × List Outcome :=
  andThen (conversation.tell input) fun conversation => conversation.handOver conversation.waiting

/-- A line from the pool. -/
def receiveLine (conversation : Conversation) (line : String) : Conversation × List Outcome :=
  match Incoming.ofLine line with
  | none => (conversation, [])
  | some incoming =>
      let (conversation, outcomes) := conversation.proceed incoming.input
      (conversation, .record (ConnectionNote.received incoming.line).record :: outcomes)

/-- Take lines from the decoder, at most `fuel` of them, until there is none or the conversation
is over. -/
def pump (take : LineDecoder → Option String × LineDecoder) :
    (fuel : Nat) → Conversation → Conversation × List Outcome
  | 0, conversation => (conversation, [])
  | fuel + 1, conversation =>
      if conversation.isOver then (conversation, [])
      else
        let (line?, decoder) := take conversation.decoder
        let overlong := decoder.overlong - conversation.decoder.overlong
        let reports :=
          List.replicate overlong
            (Outcome.record (ConnectionNote.lineTooLong decoder.maxLength).record)
        let conversation := { conversation with decoder }
        match line? with
        | none => (conversation, reports)
        | some line =>
            let (conversation, outcomes) :=
              andThen (conversation.receiveLine line) (pump take fuel)
            (conversation, reports ++ outcomes)

/-! ## What happens to a conversation -/

/-- Begin to connect to the pool that the settings name. -/
def dial (conversation : Conversation) : Conversation × List Outcome :=
  andThen (conversation.carryOut conversation.client.connect) fun conversation =>
    let url := conversation.client.settings.url
    match PoolAddress.ofUrl? url with
    | none => conversation.carryOut (conversation.client.abandon (.invalidUrl url))
    | some address => (conversation, [.record (ConnectionNote.connecting address).record])

/-- The connection that was begun comes about, unless there is an obstacle. -/
def reach (conversation : Conversation) (obstacle : Option Obstacle) :
    Conversation × List Outcome :=
  match conversation.client.phase, PoolAddress.ofUrl? conversation.client.settings.url with
  | .unconnected, some address =>
      match obstacle with
      | some obstacle =>
          conversation.carryOut (conversation.client.abandon (obstacle.fault address))
      | none =>
          andThen (conversation, [.record (ConnectionNote.connected address).record])
            fun conversation => conversation.carryOut (conversation.client.start conversation.now)
  | _, _ => (conversation, [])

/-- Stop before a connection comes about. -/
def withdraw (conversation : Conversation) : Conversation × List Outcome :=
  andThen (conversation.carryOut conversation.client.connect) fun conversation =>
    ({ conversation with client := conversation.client.withdraw }, [])

/-- Bytes arrive from the pool. -/
def receive (conversation : Conversation) (bytes : Bytes) : Conversation × List Outcome :=
  let decoder := conversation.decoder.append bytes
  pump LineDecoder.decode (decoder.buffer.length + 1) { conversation with decoder }

/-- The pool closes the connection; an unterminated last line still counts. -/
def close (conversation : Conversation) : Conversation × List Outcome :=
  andThen
    (pump LineDecoder.decodeEnd (conversation.decoder.buffer.length + 1) conversation)
    fun conversation => conversation.tell .closed

/-- A share is to be handed in. -/
def submit (conversation : Conversation) (submission : Submission) :
    Conversation × List Outcome :=
  conversation.handOver (conversation.waiting ++ [submission])

/-- Time passes. -/
def pass (conversation : Conversation) (nanoseconds : Nat) : Conversation × List Outcome :=
  { conversation with now := conversation.now + nanoseconds }.tell .wake

/-- The client is asked to stop. -/
def shutDown (conversation : Conversation) : Conversation × List Outcome :=
  conversation.tell .shutdown

/-- Nobody listens to events any more. -/
def stopListening (conversation : Conversation) : Conversation :=
  { conversation with heard := false }

end Conversation

end StratumMiner
