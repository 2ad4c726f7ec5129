import StratumMiner.Hash.Level
import StratumMiner.Pool.Client
import StratumMiner.Text.Digits

/-!
# Settings

The miner is set up through environment variables. A variable that is not there, is not text or is
blank leaves its setting at the default; only the address of the pool has none. Values are read
without the blanks around them, in a fixed order, and the first one that cannot be used is reported
as it was given.
-/

namespace StratumMiner

/-- The variables that set up the miner. -/
inductive Variable where
  | poolUrl
  | poolUser
  | poolPassword
  | connectTimeout
  | threads
  | hashLevel
  | rollNtime
  deriving Repr, DecidableEq

/-- The name of a variable in the environment. -/
def Variable.name : Variable → String
  | .poolUrl => "CPUMINER_POOL_URL"
  | .poolUser => "CPUMINER_POOL_USER"
  | .poolPassword => "CPUMINER_POOL_PASS"
  | .connectTimeout => "CPUMINER_CONNECT_TIMEOUT"
  | .threads => "CPUMINER_THREADS"
  | .hashLevel => "CPUMINER_HASH_LEVEL"
  | .rollNtime => "CPUMINER_NTIME_ROLL"

/-- The variables whose values are text. -/
abbrev Environment := Variable → Option String

/-- How to hash. -/
structure HashSettings where
  /-- The number of workers; none for as many as the machine runs at once. -/
  threads : Option Nat
  /-- The level of the hash kernel; none for the widest that the processor runs fast. -/
  level : Option Level
  /-- Whether a worker at the end of its nonces goes on with the next second. -/
  rollNtime : Bool
  deriving Repr, DecidableEq

/-- Everything that the miner has to know. -/
structure Settings where
  pool : PoolSettings
  hashing : HashSettings
  deriving Repr, DecidableEq

namespace Settings

/-- What is wrong with a value. -/
inductive Cause where
  | number (fault : Digits.Fault)
  | unknownLevel (text : String)
  | notBoolean
  deriving Repr, DecidableEq

/-- The wording of a cause. -/
def Cause.message : Cause → String
  | .number fault => fault.message
  | .unknownLevel text => Level.unknownMessage text
  | .notBoolean => "expected a boolean"

/-- Why the miner cannot be set up. -/
inductive Fault where
  | missing (setting : Variable)
  | invalid (setting : Variable) (value : String) (cause : Cause)
  deriving Repr, DecidableEq

/-- The wording of a fault. -/
def Fault.message : Fault → String
  | .missing setting => setting.name ++ " must be set"
  | .invalid setting value cause =>
      setting.name ++ "=" ++ Quoted.text value ++ ": " ++ cause.message

/-- The setting of a variable, unless it is left at its default. -/
def readVariable {Value : Type} (environment : Environment) (setting : Variable)
    (read : String → Except Cause Value) : Except Fault (Option Value) :=
  match environment setting with
  | none => .ok none
  | some value =>
      let trimmed := Blank.trim value
      if trimmed = "" then .ok none
      else
        match read trimmed with
        | .ok result => .ok (some result)
        | .error cause => .error (.invalid setting value cause)

/-- A text is taken as it is. -/
def readText (text : String) : Except Cause String :=
  .ok text

/-- A number of 64 bits. -/
def readNumber (text : String) : Except Cause Nat :=
  match Digits.parseDecimal (UInt64.size - 1) text.toList with
  | .ok number => .ok number
  | .error fault => .error (.number fault)

/-- A hash level. -/
def readLevel (text : String) : Except Cause Level :=
  match Level.parse text with
  | .ok level => .ok level
  | .error lowered => .error (.unknownLevel lowered)

/-- A truth value in one of its spellings; a blank one is false. -/
def readFlag? (text : String) : Option Bool :=
  let lowered := Blank.lowerAscii (Blank.trim text)
  if ["1", "true", "yes", "on"].contains lowered then some true
  else if ["", "0", "false", "no", "off"].contains lowered then some false
  else none

/-- Whether to roll the time. -/
def readRoll (environment : Environment) : Except Fault Bool :=
  match environment .rollNtime with
  | none => .ok false
  | some value =>
      match readFlag? value with
      | some flag => .ok flag
      | none => .error (.invalid .rollNtime value .notBoolean)

end Settings

/-- How to hash, according to the environment. -/
def HashSettings.read (environment : Environment) : Except Settings.Fault HashSettings := do
  let threads ← Settings.readVariable environment .threads Settings.readNumber
  let level ← Settings.readVariable environment .hashLevel Settings.readLevel
  let rollNtime ← Settings.readRoll environment
  .ok { threads := threads.map (max 1), level, rollNtime }

/-- How to reach the pool, according to the environment. -/
def PoolSettings.read (environment : Environment) : Except Settings.Fault PoolSettings := do
  let url ← Settings.readVariable environment .poolUrl Settings.readText
  match url with
  | none => .error (.missing .poolUrl)
  | some url =>
      let username ← Settings.readVariable environment .poolUser Settings.readText
      let password ← Settings.readVariable environment .poolPassword Settings.readText
      let timeout ← Settings.readVariable environment .connectTimeout Settings.readNumber
      .ok {
        url
        username := username.getD "cpuminer"
        password := password.getD "x"
        userAgent := PoolSettings.defaultUserAgent
        connectTimeout := max 1 (timeout.getD PoolSettings.defaultConnectTimeout) }

/-- All settings, according to the environment; those of the pool come first. -/
def Settings.read (environment : Environment) : Except Settings.Fault Settings := do
  let pool ← PoolSettings.read environment
  let hashing ← HashSettings.read environment
  .ok { pool, hashing }

end StratumMiner
