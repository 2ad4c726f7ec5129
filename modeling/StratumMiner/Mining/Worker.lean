import StratumMiner.Mining.Order
import StratumMiner.Mining.WorkerLog

/-!
# Workers

A worker owns a range of nonces and searches it for one piece of work at a time, in batches of the
size that its hasher takes. Between batches it looks, in this order, whether the miner still runs,
whether the epoch is still that of its work, and whether an order has come in; so it stops within
one batch of any of these. When the range is exhausted it either rests or goes over the range again
with the next second in the header, up to six hundred times. Batches come in chunks, and the hashes
of a chunk are counted when the chunk ends.

A step of a worker is one look at something that others can change, or one batch, or one share sent.
-/

namespace StratumMiner

/-- How often the time in a header may be rolled for one piece of work. -/
def maxNtimeRolls : Nat := 600

/-- The number of batches in a chunk. -/
def batchesPerChunk : Nat := 256

/-- What a worker keeps all its life. -/
structure WorkerSettings where
  name : String
  /-- The nonces that the worker owns. -/
  range : NonceRange
  hasher : Hasher
  /-- Whether to go on with the next second when the range is exhausted. -/
  rollNtime : Bool
  deriving Repr, DecidableEq

/-- How far the search for one piece of work has come. -/
structure Search where
  work : Work
  template : HeaderTemplate
  epoch : UInt64
  /-- The next nonce to hash, which may be one past the last. -/
  next : Nat
  rolls : Nat
  deriving Repr, DecidableEq

/-- Where a worker is on its way through one batch. -/
inductive BatchPoint where
  /-- About to look whether the miner still runs. -/
  | running
  /-- About to look at the epoch. -/
  | epoch
  /-- About to look for an order. -/
  | inbox
  /-- About to hash. -/
  | hashing
  /-- About to send a share, and then others. -/
  | sending (share : Share) (others : List Share)
  deriving Repr, DecidableEq

/-- What a worker is doing. -/
inductive WorkerStage where
  /-- At the top of its loop, with or without a search. -/
  | ready (search : Option Search)
  /-- Waiting for an order. -/
  | waiting
  /-- About to follow an order. -/
  | following (search : Option Search) (order : Order)
  /-- In a chunk of a search, with the batches and headers hashed in it. -/
  | searching (search : Search) (batches hashed : Nat) (point : BatchPoint)
  | exited
  deriving Repr, DecidableEq

/-- The orders on their way to a worker. -/
structure Inbox where
  /-- The orders that have not been taken, oldest first. -/
  orders : List Order
  /-- Whether further orders can come. -/
  isOpen : Bool
  deriving Repr, DecidableEq

/-- A worker with the orders that wait for it. -/
structure Worker where
  settings : WorkerSettings
  inbox : Inbox
  stage : WorkerStage
  deriving Repr, DecidableEq

namespace Worker

/-- What a worker gives to the others. -/
inductive Effect where
  /-- Headers have been hashed. -/
  | count (hashes : Nat)
  | send (share : Share)
  | note (note : WorkerNote)
  deriving Repr, DecidableEq

/-- A worker at the beginning of its life. -/
def start (settings : WorkerSettings) : Worker × List Effect :=
  ({ settings, inbox := { orders := [], isOpen := true }, stage := .ready none },
    [.note (.started settings.range settings.hasher.level)])

/-- An order is put behind those that wait. -/
def tell (worker : Worker) (order : Order) : Worker :=
  { worker with inbox := { worker.inbox with orders := worker.inbox.orders ++ [order] } }

/-- The end of a worker. -/
def exit (worker : Worker) (effects : List Effect) : Worker × List Effect :=
  ({ worker with stage := .exited }, effects ++ [.note .exiting])

/-- The top of the loop. -/
def toTop (worker : Worker) (search : Option Search) (effects : List Effect) :
    Worker × List Effect :=
  ({ worker with stage := .ready search }, effects)

/-- Begin a search, unless the work is of another epoch or cannot be mined. -/
def begin (worker : Worker) (epoch : UInt64) (work : Work) (workEpoch : UInt64) :
    Worker × List Effect :=
  if workEpoch = epoch then
    match work.headerTemplate with
    | .ok template =>
        worker.toTop
          (some { work, template, epoch, next := worker.settings.range.start.toNat, rolls := 0 })
          [.note (.starting work)]
    | .error fault => worker.toTop none [.note (.invalid work.job.id fault)]
  else worker.toTop none [.note (.oldEpoch work.job.id)]

/-- Follow an order. -/
def follow (worker : Worker) (epoch : UInt64) (search : Option Search) :
    Order → Worker × List Effect
  | .assign work workEpoch => worker.begin epoch work workEpoch
  | .idle => worker.toTop none (if search.isSome then [.note .goingIdle] else [])
  | .shutdown => worker.exit []

/-- All nonces of the range have been hashed: roll the time or rest. -/
def exhaust (worker : Worker) (search : Search) (hashed : Nat) : Worker × List Effect :=
  if worker.settings.rollNtime && search.rolls < maxNtimeRolls then
    let ntime := search.template.ntime + 1
    worker.toTop
      (some { search with
        template := search.template.setNtime ntime
        next := worker.settings.range.start.toNat
        rolls := search.rolls + 1 })
      [.count hashed, .note (.rolled ntime)]
  else worker.toTop none [.count hashed, .note (.exhausted search.work.job.id)]

/-- Behind a batch: the next one, or the end of the chunk. -/
def afterBatch (worker : Worker) (search : Search) (batches hashed : Nat) :
    Worker × List Effect :=
  if batches + 1 < batchesPerChunk then
    ({ worker with stage := .searching search (batches + 1) hashed .running }, [])
  else if worker.settings.range.stop ≤ search.next then worker.exhaust search hashed
  else worker.toTop (some search) [.count hashed]

/-- The shares among the digests of consecutive nonces. -/
def sharesAmong (search : Search) (nonce : UInt32) : List Bytes32 → List Share
  | [] => []
  | digest :: rest =>
      let others := sharesAmong search (nonce + 1) rest
      if search.work.target.isMetBy digest then
        { jobId := search.work.job.id, extranonce2 := search.work.extranonce2?,
          ntime := search.template.ntime, nonce, digest } :: others
      else others

/-- The length of the next batch: what the kernel takes at once, or what is left of the range. -/
def batchLength (settings : WorkerSettings) (search : Search) : Nat :=
  min (settings.range.stop - search.next) settings.hasher.level.batchSize

/-- The headers of the next batch. -/
def nextBatch (settings : WorkerSettings) (search : Search) : List HeaderBytes :=
  search.template.batch (UInt32.ofNat search.next) (batchLength settings search)

/-- Hash the next batch. -/
def hash (worker : Worker) (search : Search) (batches hashed : Nat) : Worker × List Effect :=
  if worker.settings.range.stop - search.next = 0 then worker.exhaust search hashed
  else
    let digests := worker.settings.hasher.hashBatch (nextBatch worker.settings search)
    let found := sharesAmong search (UInt32.ofNat search.next) digests
    let count := batchLength worker.settings search
    let search := { search with next := search.next + count }
    match found with
    | [] => worker.afterBatch search batches (hashed + count)
    | share :: others =>
        ({ worker with
            stage := .searching search batches (hashed + count) (.sending share others) }, [])

/-- One step while searching. -/
def stepSearch (running : Bool) (epoch : UInt64) (worker : Worker) (search : Search)
    (batches hashed : Nat) : BatchPoint → Worker × List Effect
  | .running =>
      if running then ({ worker with stage := .searching search batches hashed .epoch }, [])
      else worker.exit [.count hashed]
  | .epoch =>
      if epoch = search.epoch then
        ({ worker with stage := .searching search batches hashed .inbox }, [])
      else worker.toTop none [.count hashed, .note (.superseded search.work.job.id)]
  | .inbox =>
      match worker.inbox.orders with
      | order :: orders =>
          ({ worker with
              inbox := { worker.inbox with orders }
              stage := .following (some search) order }, [.count hashed])
      | [] =>
          if worker.inbox.isOpen then
            ({ worker with stage := .searching search batches hashed .hashing }, [])
          else worker.exit [.count hashed]
  | .hashing => worker.hash search batches hashed
  | .sending share others =>
      let sent := [.note (.found share), .send share]
      match others with
      | next :: others =>
          ({ worker with stage := .searching search batches hashed (.sending next others) }, sent)
      | [] =>
          let (worker, effects) := worker.afterBatch search batches hashed
          (worker, sent ++ effects)

/-- One step of a worker, seeing whether the miner runs and what the epoch is. -/
def step (running : Bool) (epoch : UInt64) (worker : Worker) : Worker × List Effect :=
  match worker.stage with
  | .ready search =>
      if running then
        match search with
        | none => ({ worker with stage := .waiting }, [])
        | some search => ({ worker with stage := .searching search 0 0 .running }, [])
      else worker.exit []
  | .waiting =>
      match worker.inbox.orders with
      | order :: orders =>
          ({ worker with
              inbox := { worker.inbox with orders }
              stage := .following none order }, [])
      | [] => if worker.inbox.isOpen then worker.toTop none [] else worker.exit []
  | .following search order => worker.follow epoch search order
  | .searching search batches hashed point =>
      worker.stepSearch running epoch search batches hashed point
  | .exited => (worker, [])

/-- Whether the worker has a search in hand. -/
def isSearching (worker : Worker) : Bool :=
  match worker.stage with
  | .searching _ _ _ _ | .ready (some _) | .following (some _) _ => true
  | _ => false

/-- Whether the worker has come to its end. -/
def hasExited (worker : Worker) : Bool :=
  match worker.stage with
  | .exited => true
  | _ => false

/-- Whether the worker waits and nothing has come in. -/
def isResting (worker : Worker) : Bool :=
  match worker.stage with
  | .waiting => worker.inbox.orders.isEmpty && worker.inbox.isOpen
  | _ => false

/-- The share that the worker sends in its next step. -/
def nextShare? (worker : Worker) : Option Share :=
  match worker.stage with
  | .searching _ _ _ (.sending share _) => some share
  | _ => none

/-- Steps until the worker satisfies `done`, at most `fuel` of them, while nothing around it
changes. The effects come latest first. -/
def runUntil (done : Worker → Bool) (running : Bool) (epoch : UInt64) :
    (fuel : Nat) → Worker → List Effect → Worker × List Effect
  | 0, worker, effects => (worker, effects)
  | fuel + 1, worker, effects =>
      if done worker then (worker, effects)
      else
        let (worker, more) := worker.step running epoch
        runUntil done running epoch fuel worker (more.reverse ++ effects)

end Worker

end StratumMiner
