import StratumMiner.Mining.Worker

/-!
# A worker on its own

A bench holds one worker together with the epoch and the count of hashes that it shares with the
rest of a miner. It lets the worker run until it rests, or until it is searching, and tells what
became of the work it was given.
-/

namespace StratumMiner

/-- One worker and what it shares with others. -/
structure Bench where
  worker : Worker
  epoch : UInt64
  /-- The hashes counted so far. -/
  hashes : UInt64
  deriving Repr, DecidableEq

namespace Bench

/-- What became of work given to a worker. -/
inductive Ending where
  /-- All nonces were searched, as often as the time may be rolled. -/
  | exhausted
  | invalid (fault : Work.Fault)
  | oldEpoch
  /-- The worker is still searching. -/
  | searching
  /-- The worker has exited. -/
  | closed
  deriving Repr, DecidableEq

/-- A bench with a worker at the beginning of its life. The worker's thread bears its name, and no
thread can have a name with a null character in it. -/
def start? (settings : WorkerSettings) (epoch : UInt64) : Option Bench :=
  if settings.name.contains '\x00' then none
  else some { worker := (Worker.start settings).1, epoch, hashes := 0 }

/-- More steps than any search takes. -/
def manySteps : Nat := 0x4000000000000000

/-- Whether the worker will do nothing by itself. -/
def isAtRest (worker : Worker) : Bool :=
  worker.isResting || worker.hasExited

/-- Whether the worker is about to hash, or will do nothing by itself. -/
def isHashingOrAtRest (worker : Worker) : Bool :=
  match worker.stage with
  | .searching _ _ _ .hashing => true
  | _ => isAtRest worker

/-- The shares that a worker has sent. -/
def sharesIn (effects : List Worker.Effect) : List Share :=
  effects.filterMap fun effect =>
    match effect with
    | .send share => some share
    | _ => none

/-- The headers that a worker has hashed. -/
def hashesIn (effects : List Worker.Effect) : Nat :=
  effects.foldl (fun total effect =>
    match effect with
    | .count hashes => total + hashes
    | _ => total) 0

/-- Let the worker run. -/
def run (bench : Bench) (running : Bool) (done : Worker → Bool) :
    Bench × List Worker.Effect :=
  let (worker, effects) := bench.worker.runUntil done running bench.epoch manySteps []
  let effects := effects.reverse
  ({ bench with worker, hashes := bench.hashes + UInt64.ofNat (hashesIn effects) }, effects)

/-- What the last report on the work says became of it. -/
def ending (effects : List Worker.Effect) : Ending :=
  effects.foldl (fun ending effect =>
    match effect with
    | .note (.exhausted _) => .exhausted
    | .note (.invalid _ fault) => .invalid fault
    | .note (.oldEpoch _) => .oldEpoch
    | .note (.starting _) => .searching
    | _ => ending) .searching

/-- Give work to the worker, and let it run until it rests or, on demand, only until it is
searching. -/
def assign (bench : Bench) (work : Work) (epoch : UInt64) (untilSearching : Bool) :
    Bench × Ending × List Share :=
  if bench.worker.hasExited then (bench, .closed, [])
  else
    let taken (worker : Worker) : Bool :=
      isHashingOrAtRest worker && worker.inbox.orders.isEmpty
    let told := { bench with worker := bench.worker.tell (.assign work epoch) }
    -- A search in hand hashes until its worker has seen the order.
    let (bench, effects) := told.run true (if untilSearching then taken else isAtRest)
    (bench, if isAtRest bench.worker then ending effects else .searching, sharesIn effects)

/-- Move the epoch on: whether that ended a search. -/
def advance (bench : Bench) (count : UInt64) : Bench × Bool × List Share :=
  let searching := bench.worker.isSearching
  let (bench, effects) := { bench with epoch := bench.epoch + count }.run true isAtRest
  (bench, searching, sharesIn effects)

/-- Stop the search: whether there was one, unless the worker has exited. -/
def idle (bench : Bench) : Bench × Option Bool × List Share :=
  if bench.worker.hasExited then (bench, none, [])
  else
    let searching := bench.worker.isSearching
    let (bench, effects) := { bench with worker := bench.worker.tell .idle }.run true isAtRest
    (bench, some searching, sharesIn effects)

/-- Order the worker to exit. -/
def shutDown (bench : Bench) : Bench × List Share :=
  let (bench, effects) :=
    { bench with worker := bench.worker.tell .shutdown }.run true Worker.hasExited
  (bench, sharesIn effects)

/-- Clear the mark that the miner runs. -/
def stop (bench : Bench) : Bench × List Share :=
  let (bench, effects) := bench.run false Worker.hasExited
  (bench, sharesIn effects)

end Bench

end StratumMiner
