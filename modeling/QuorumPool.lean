import QuorumPool.Cli.Arguments
import QuorumPool.Cli.Check
import QuorumPool.Cli.Files
import QuorumPool.Cli.Help
import QuorumPool.Cli.Run
import QuorumPool.Cli.Watch
import QuorumPool.Config
import QuorumPool.Document.Decoder
import QuorumPool.Document.Json.Reader
import QuorumPool.Document.Json.Writer
import QuorumPool.Document.Misfit
import QuorumPool.Document.Toml.Lexical
import QuorumPool.Document.Toml.Reader
import QuorumPool.Document.Toml.Scalar
import QuorumPool.Document.Toml.Tree
import QuorumPool.Document.Value
import QuorumPool.Duration
import QuorumPool.Event
import QuorumPool.Failure
import QuorumPool.IoError
import QuorumPool.Log.Filter
import QuorumPool.Log.Line
import QuorumPool.Log.Snapshot
import QuorumPool.Main
import QuorumPool.Number.Binary64
import QuorumPool.Number.Shortest
import QuorumPool.Pool.Alone
import QuorumPool.Pool.Basic
import QuorumPool.Pool.Checker
import QuorumPool.Pool.Get
import QuorumPool.Pool.Put
import QuorumPool.Pool.Run
import QuorumPool.Pool.Shutdown
import QuorumPool.Pool.Task
import QuorumPool.Pool.Verdict
import QuorumPool.PoolError
import QuorumPool.Quorum
import QuorumPool.Redis.Client
import QuorumPool.Redis.Dialer
import QuorumPool.Redis.Error
import QuorumPool.Redis.Handshake
import QuorumPool.Redis.Pool
import QuorumPool.Redis.Registry
import QuorumPool.Rehearsal.Backend
import QuorumPool.Rehearsal.Op
import QuorumPool.Rehearsal.Schedule
import QuorumPool.Rehearsal.World
import QuorumPool.Scripted.Endpoint
import QuorumPool.Scripted.Error
import QuorumPool.Scripted.Network
import QuorumPool.Scripted.Reply
import QuorumPool.Session.Command
import QuorumPool.Session.Run
import QuorumPool.Settings.Address
import QuorumPool.Settings.Basic
import QuorumPool.Settings.Decode
import QuorumPool.Settings.Validate
import QuorumPool.Shard
import QuorumPool.Stats
import QuorumPool.Text.Blank
import QuorumPool.Text.Digits
import QuorumPool.Text.Plain
import QuorumPool.Text.Quoted
import QuorumPool.Proofs.Run
import QuorumPool.Proofs.Shards
import QuorumPool.Proofs.Move
import QuorumPool.Proofs.Activity
import QuorumPool.Proofs.Effect
import QuorumPool.Proofs.WellFormed
import QuorumPool.Proofs.Tasks
import QuorumPool.Proofs.Conservation
import QuorumPool.Proofs.Slots
import QuorumPool.Proofs.Service
import QuorumPool.Proofs.Ceiling
import QuorumPool.Proofs.Availability
import QuorumPool.Proofs.Verdicts
import QuorumPool.Proofs.Demotions
import QuorumPool.Proofs.Answers
import QuorumPool.Proofs.Closures
import QuorumPool.Proofs.Shutdown
import QuorumPool.Proofs.Borrowing
import QuorumPool.Proofs.Reuse
import QuorumPool.Proofs.Loans
import QuorumPool.Proofs.Cutoff
import QuorumPool.Proofs.Verification
import QuorumPool.Proofs.Startup
import QuorumPool.Proofs.Changes
import QuorumPool.Proofs.Discipline
import QuorumPool.Proofs.Drains
import QuorumPool.Proofs.Totals
import QuorumPool.Proofs.Occurrences
import QuorumPool.Proofs.Solo
import QuorumPool.Proofs.ShardGet
import QuorumPool.Proofs.Tour
import QuorumPool.Proofs.Links
import QuorumPool.Proofs.Dials
import QuorumPool.Proofs.Traffic
import QuorumPool.Proofs.Releases
import QuorumPool.Proofs.Alone
import QuorumPool.Proofs.Effort
import QuorumPool.Proofs.Completion
import QuorumPool.Proofs.Trials
import QuorumPool.Proofs.Retirement
import QuorumPool.Proofs.Registry
import QuorumPool.Proofs.ShardPut
import QuorumPool.Proofs.Chores
import QuorumPool.Proofs.Outcomes
import QuorumPool.Proofs.Suspicion
import QuorumPool.Proofs.Sweep
import QuorumPool.Proofs.SweepOutcome
import QuorumPool.Proofs.QueueOrder
import QuorumPool.Proofs.Freshness
import QuorumPool.Proofs.Drainees
import QuorumPool.Proofs.Leftovers
import QuorumPool.Proofs.Fairness
import QuorumPool.Proofs.Excess
import QuorumPool.Proofs.ReuseStatistic
import QuorumPool.Proofs.Demand
import QuorumPool.Proofs.Attempts
import QuorumPool.Proofs.Inspections
import QuorumPool.Proofs.Lookup
import QuorumPool.Proofs.Echoes
import QuorumPool.Proofs.GetEffort
import QuorumPool.Proofs.Restored
import QuorumPool.Proofs.Query
import QuorumPool.Proofs.AddressLists
import QuorumPool.Proofs.Validation
import QuorumPool.Proofs.Handshake
import QuorumPool.Proofs.Retries
