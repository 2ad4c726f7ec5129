import StratumMiner.Bytes
import StratumMiner.Difficulty
import StratumMiner.Duration
import StratumMiner.Hash.HeaderKernel
import StratumMiner.Hash.Lanes
import StratumMiner.Hash.Level
import StratumMiner.Hash.Sha256
import StratumMiner.HashRate
import StratumMiner.Json.Basic
import StratumMiner.Json.Reader
import StratumMiner.Json.Writer
import StratumMiner.Log.Directive
import StratumMiner.Log.Filter
import StratumMiner.Log.Pattern
import StratumMiner.Log.Pattern.Atom
import StratumMiner.Log.Pattern.Bracket
import StratumMiner.Log.Record
import StratumMiner.Main
import StratumMiner.Miner.Program
import StratumMiner.Miner.Relay
import StratumMiner.Miner.Rig
import StratumMiner.Miner.System
import StratumMiner.Mining.Bench
import StratumMiner.Mining.Dispatcher
import StratumMiner.Mining.Extranonce
import StratumMiner.Mining.Header
import StratumMiner.Mining.Merkle
import StratumMiner.Mining.Nonce
import StratumMiner.Mining.Order
import StratumMiner.Mining.Work
import StratumMiner.Mining.Worker
import StratumMiner.Mining.WorkerLog
import StratumMiner.Number.Double
import StratumMiner.Number.DoubleOfNat
import StratumMiner.Number.Rounding
import StratumMiner.Number.Shortest
import StratumMiner.Number.Style
import StratumMiner.Number.UInt256
import StratumMiner.Pool.Address
import StratumMiner.Pool.Client
import StratumMiner.Pool.ClientLog
import StratumMiner.Pool.Connection
import StratumMiner.Pool.Conversation
import StratumMiner.Pool.Event
import StratumMiner.Pool.Fault
import StratumMiner.Pool.Host
import StratumMiner.Pool.Line
import StratumMiner.Pool.Message
import StratumMiner.Pool.Notice
import StratumMiner.Pool.Submission
import StratumMiner.Pool.Subscription
import StratumMiner.Proofs.Bytes
import StratumMiner.Proofs.CompactTarget
import StratumMiner.Proofs.Difficulty
import StratumMiner.Proofs.Duration
import StratumMiner.Proofs.Hash.Batch
import StratumMiner.Proofs.Hash.Lanes
import StratumMiner.Proofs.Hash.Message
import StratumMiner.Proofs.Hash.Standard
import StratumMiner.Proofs.Json.Reading
import StratumMiner.Proofs.Json.RoundTrip
import StratumMiner.Proofs.Json.Tokens
import StratumMiner.Proofs.Json.Value
import StratumMiner.Proofs.Miner.Actions
import StratumMiner.Proofs.Miner.Deadlock
import StratumMiner.Proofs.Miner.DeadlockCourse
import StratumMiner.Proofs.Miner.RelayRun
import StratumMiner.Proofs.Miner.ShareLedger
import StratumMiner.Proofs.Miner.SystemCrew
import StratumMiner.Proofs.Miner.SystemSession
import StratumMiner.Proofs.Mining.Attempt
import StratumMiner.Proofs.Mining.Crew
import StratumMiner.Proofs.Mining.CrewRun
import StratumMiner.Proofs.Mining.CurrentJobs
import StratumMiner.Proofs.Mining.Desk
import StratumMiner.Proofs.Mining.DeskHistory
import StratumMiner.Proofs.Mining.Extranonce
import StratumMiner.Proofs.Mining.Header
import StratumMiner.Proofs.Mining.InFlight
import StratumMiner.Proofs.Mining.Merkle
import StratumMiner.Proofs.Mining.MerkleTree
import StratumMiner.Proofs.Mining.Partition
import StratumMiner.Proofs.Mining.SessionWork
import StratumMiner.Proofs.Mining.Supersession
import StratumMiner.Proofs.Mining.Sweep
import StratumMiner.Proofs.Mining.Team
import StratumMiner.Proofs.Mining.WorkerCourse
import StratumMiner.Proofs.Mining.WorkerLedger
import StratumMiner.Proofs.Mining.WorkerRun
import StratumMiner.Proofs.Number.Exact
import StratumMiner.Proofs.Pool.Bookkeeping
import StratumMiner.Proofs.Pool.Emission
import StratumMiner.Proofs.Pool.Fragments
import StratumMiner.Proofs.Pool.Framing
import StratumMiner.Proofs.Pool.Lifecycle
import StratumMiner.Proofs.Pool.Line
import StratumMiner.Proofs.Pool.LineBounds
import StratumMiner.Proofs.Pool.LineDecoder
import StratumMiner.Proofs.Pool.Message
import StratumMiner.Proofs.Pool.Noise
import StratumMiner.Proofs.Pool.Notice
import StratumMiner.Proofs.Pool.NoticeGrammar
import StratumMiner.Proofs.Pool.NoticeRoundTrip
import StratumMiner.Proofs.Pool.Session
import StratumMiner.Proofs.Pool.Settlement
import StratumMiner.Proofs.Pool.Tally
import StratumMiner.Proofs.Pool.Verdict
import StratumMiner.Proofs.Pool.Verifier
import StratumMiner.Proofs.Statistics
import StratumMiner.Proofs.Target
import StratumMiner.Proofs.Text.HexDecoding
import StratumMiner.Proofs.Text.HexGrammar
import StratumMiner.Proofs.Text.HexReading
import StratumMiner.Proofs.Text.Utf8
import StratumMiner.Proofs.Window
import StratumMiner.Settings
import StratumMiner.Statistics
import StratumMiner.Text.Alphanumeric
import StratumMiner.Text.Blank
import StratumMiner.Text.CodeRanges
import StratumMiner.Text.Digits
import StratumMiner.Text.Hex
import StratumMiner.Text.Quoted
import StratumMiner.Text.Utf8
import StratumMiner.Text.Visible
