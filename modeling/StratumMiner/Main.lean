import Std.Async.DNS
import Std.Async.Signal
import Std.Async.System
import Std.Async.TCP
import StratumMiner.Miner.Program

/-!
# The command

All decisions are made by the rig. What stands here asks the machine for its environment, its clock,
its signals and a connection, tells the rig what comes of them, and carries out what the rig puts
out.
-/

namespace StratumMiner.Command

/-! ## The machine -/

/-- A connection of the operating system. -/
abbrev Socket := Std.Async.TCP.Socket.Client

/-- What an operation gives when it is done. -/
abbrev Awaited (Result : Type) := Std.Async.AsyncTask Result

/-- The result of an operation, once it is done. -/
def result? {Result : Type} (awaited : Awaited Result) : IO (Option (Except IO.Error Result)) := do
  if ← IO.hasFinished awaited then return some (← IO.wait awaited) else return none

/-- The variables that set up the miner. -/
def environment : IO Environment := do
  let names : List Variable :=
    [.poolUrl, .poolUser, .poolPassword, .connectTimeout, .threads, .hashLevel, .rollNtime]
  let values ← names.mapM fun setting => do return (setting, ← IO.getEnv setting.name)
  return fun setting => (values.lookup setting).join

/-- As many workers as the machine runs at once. -/
def machineThreads : IO Nat := do
  try return max 1 (← Std.Async.System.getCPUInfo).size catch _ => return 1

/-- The time of day to the second. -/
def timeOfDay : IO String := do
  let time ← try Std.Time.PlainTime.now catch _ => return "00:00:00"
  let pair (number : Int) : String :=
    let digits := toString number.toNat
    if digits.length < 2 then "0" ++ digits else digits
  return pair time.hour.val ++ ":" ++ pair time.minute.val ++ ":" ++ pair time.second.val

/-- Connect to the first answering machine of an address. -/
def connect (address : String) : Std.Async.Async Socket := do
  let some (host, port) := PoolAddress.endpoint? address
    | throw (IO.userError "invalid socket address")
  let found ← Std.Async.DNS.getAddrInfo host (toString port.toNat)
  let mut problem := IO.userError "no addresses found"
  for machine in found do
    try
      let socket ← Std.Async.TCP.Socket.Client.mk
      match machine with
      | .v4 addr => socket.connect (.v4 { addr, port })
      | .v6 addr => socket.connect (.v6 { addr, port })
      socket.noDelay
      return socket
    catch error => problem := error
  throw problem

/-! ## The connection -/

/-- How far the connection to the pool has come. -/
inductive Connection where
  | opening (attempt : Awaited Socket) (deadline : Instant)
  | opened (socket : Socket) (reading : Awaited (Option ByteArray))
  | over

/-- How many bytes are read at once. -/
def readSize : UInt64 := 65536

/-- Begin to read. -/
def beginReading (socket : Socket) : IO Connection := do
  return .opened socket (← (socket.recv? readSize).asTask)

/-- Begin to connect to the pool that a URL names. -/
def beginConnecting (settings : PoolSettings) (now : Instant) : IO Connection := do
  match PoolAddress.ofUrl? settings.url with
  | none => return .over
  | some address =>
      return .opening (← (connect address).asTask) (now + inSeconds settings.connectTimeout)

/-- Tell the rig what has come of its connection. -/
def listen (rig : Rig) : Connection → IO (Rig × Connection)
  | .opening attempt deadline => do
      match ← result? attempt with
      | some (.ok socket) => return (rig.reach none, ← beginReading socket)
      | some (.error error) => return (rig.reach (some (.unreachable error.toString)), .over)
      | none =>
          if deadline ≤ rig.now then return (rig.reach (some .silence), .over)
          else return (rig, .opening attempt deadline)
  | .opened socket reading => do
      match ← result? reading with
      | some (.ok (some bytes)) => return (rig.receive bytes.toList, ← beginReading socket)
      | some _ => return (rig.close, .over)
      | none => return (rig, .opened socket reading)
  | .over => return (rig, .over)

/-- Send the lines that the rig has put out. A connection that fails here is seen as closed by the
next reading. -/
def send (rig : Rig) : Connection → IO Unit
  | .opened socket _ => do
      for line in rig.lines do
        try (socket.send (line ++ "\n").toUTF8).block catch _ => return
  | _ => return

/-- Write the records that pass the filter. -/
def write (filter : LogFilter) (rig : Rig) : IO Unit := do
  let output ← IO.getStdout
  for line in Program.logLines filter rig.log.toList do
    output.putStrLn ((← timeOfDay) ++ " " ++ line)
  output.flush

/-! ## The run -/

/-- Signals that end the program, with what tells of them. -/
abbrev Watch := List (Signal × Awaited Int)

/-- Begin to watch for signals. -/
def beginWatching : IO Watch := do
  let interrupt ← Std.Async.Signal.Waiter.mk .sigint false
  let terminate ← Std.Async.Signal.Waiter.mk .sigterm false
  return [(.interrupt, ← interrupt.wait), (.terminate, ← terminate.wait)]

/-- Tell the rig of signals. -/
def heed (watch : Watch) (rig : Rig) : IO Rig :=
  watch.foldlM (fun rig (signal, arrival) => do
    match ← result? arrival with
    | some _ => return rig.signal signal
    | none => return rig) rig

/-- How long to rest when there is nothing to hash, in milliseconds. -/
def rest : UInt32 := 5

/-- Run until the end, with the fault if there was one. -/
partial def run (filter : LogFilter) (watch : Watch) (rig : Rig) (connection : Connection) :
    IO (Option PoolFault) := do
  let rig ← heed watch (rig.pass (← IO.monoNanosNow))
  let (rig, connection) ← listen rig connection
  let rig := rig.work
  send rig connection
  write filter rig
  match rig.outcome with
  | some fault => return fault
  | none =>
      unless rig.isAtWork do IO.sleep rest
      run filter watch rig.emptied connection

/-- The end of the program, with a text for standard error. -/
def finish (failure : Option String) : IO UInt32 := do
  match failure with
  | some text => (← IO.getStderr).putStr text
  | none => pure ()
  return Program.exitCode failure.isSome

end StratumMiner.Command

open StratumMiner in
/-- Mine as the environment says. -/
def main : IO UInt32 := do
  let filterText := (← IO.getEnv Program.filterVariable).getD ""
  for complaint in LogFilter.complaints filterText do
    (← IO.getStderr).putStrLn complaint
  match Settings.read (← Command.environment) with
  | .error fault => Command.finish (some (Program.failureText fault.message))
  | .ok settings =>
      let threads := settings.hashing.threads.getD (← Command.machineThreads)
      let now ← IO.monoNanosNow
      let watch ← Command.beginWatching
      let rig := Rig.start settings .scalar threads now
      let connection ← Command.beginConnecting settings.pool now
      let fault ← Command.run (LogFilter.ofText filterText) watch rig connection
      Command.finish (fault.map Program.poolFailureText)
