import Simard.Library.BTreeMap
import Simard.Library.BTreeSet
import Simard.Library.Bytes
import Simard.Library.Json
import Simard.Library.Machine
import Simard.Library.Program
import Simard.Library.Pool
import Simard.Library.Ranking
import Simard.Library.Serde
import Simard.Library.Sha256
import Simard.Library.Store
import Simard.Library.Text
import Simard.TypedOoda.Types
import Simard.TypedOoda.Schema
import Simard.TypedOoda.Wire
import Simard.TypedOoda.Registry
import Simard.TypedOoda.Effects
import Simard.TypedOoda.Terminals
import Simard.TypedOoda.Processes
import Simard.TypedOoda.Sessions
import Simard.TypedOoda.Handler
import Simard.TypedOoda.Executor
import Simard.TypedOoda.Transactions
import Simard.TypedOoda.System
import Simard.TypedOoda.EffectLeases
import Simard.TypedOoda.ProcessRuns
import Simard.TypedOoda.ExactlyOnce
import Simard.TypedOoda.DurableBlock
import Simard.TypedOoda.Approvals
import Simard.TypedOoda.OutcomeLinks
import Simard.TypedOoda.ProcessCap
import Simard.TypedOoda.SessionScope
import Simard.Goals.Board
import Simard.Engineers.ClaimKeys
import Simard.Engineers.Worktrees
import Simard.Engineers.Reaper
import Simard.Goals.CompletionGate
import Simard.Goals.NoProgress
import Simard.Goals.Breaker
import Simard.Goals.TrackingIssues
import Simard.Goals.Livelock
import Simard.Goals.PullRequests
import Simard.Goals.Reconcile
import Simard.Goals.GoalSlug
import Simard.Goals.BoardStore
import Simard.Library.Action
import Simard.Goals.Curation
import Simard.Goals.BoardIds
import Simard.Goals.Handoffs
import Simard.Goals.Housekeeping
import Simard.Goals.Tombstones
import Simard.Goals.OperatorAdds
import Simard.Goals.Quarantine
import Simard.Goals.TargetRepos
import Simard.Goals.Unblock
import Simard.SafeUpdate.State
import Simard.SafeUpdate.Snapshot
import Simard.SafeUpdate.Update
import Simard.SafeUpdate.Draining
import Simard.SafeUpdate.Validate
import Simard.SafeUpdate.WayBack
import Simard.SafeUpdate.Deploy
import Simard.SafeUpdate.Watchdog
import Simard.Library.Files
import Simard.Disk.WorktreeGc
import Simard.Disk.LostWork
import Simard.Disk.Reclaim
import Simard.Guards.ReadOnly
import Simard.Guards.AdoAcl
import Simard.Library.Calls
import Simard.Library.History
import Simard.Library.Lines
import Simard.Library.SipHash
import Simard.Library.Transcript
import Simard.Locks.BuildLock
import Simard.Locks.LeaderSemaphore
import Simard.Locks.Leadership
import Simard.Merging.PrVerify
import Simard.Merging.GitDiff
import Simard.Merging.DiffReading
import Simard.Merging.MergeOps
import Simard.Merging.MergeGates
import Simard.Merging.MergedHead
import Simard.Merging.ScanEvasion
import Simard.Overseer.Guardrails
import Simard.Overseer.Recipes
import Simard.Overseer.Ticks
import Simard.Overseer.Investigations
import Simard.Overseer.RateLimits
import Simard.Overseer.TickMemory
import Simard.Overseer.TickWatchdog
import Simard.Library.Frames
import Simard.Memory.Reminders
import Simard.Memory.Snapshots
import Simard.Memory.Backups
import Simard.Memory.GatedFacts
import Simard.Memory.Ideas
import Simard.Memory.Ipc
import Simard.Merging.ReadySensors
import Simard.Overseer.Liaison
import Simard.Overseer.Rework
import Simard.Overseer.ReworkCycles
import Simard.Engineers.SweepAccounts
import Simard.Memory.OpenGuard
import Simard.Memory.OpenHeld
import Simard.Memory.OpenExclusion
import Simard.TypedOoda.EffectShape
import Simard.TypedOoda.Fingerprints
import Simard.Goals.Coverage
import Simard.Library.Padded
import Simard.Memory.FactOrder
import Simard.Signal.Channel
import Simard.Signal.Continuity
import Simard.SupplyChain.IgnoreFiles
import Simard.SupplyChain.Steward
import Simard.SupplyChain.Bumps
import Simard.Library.Triples
import Simard.Runtime.Kernel
import Simard.Runtime.Sessions
import Simard.Runtime.Records
import Simard.Goals.Snapshot
import Simard.Goals.DaemonCycle
import Simard.Goals.Departures
import Simard.Library.PutFirst
import Simard.Goals.DoneGatePins
import Simard.Goals.DoneCriteria
import Simard.Goals.Overflow
import Simard.Goals.PrReaders
import Simard.Goals.Prioritization
import Simard.Goals.Progress
import Simard.Goals.Recommit
import Simard.Goals.StandingGoals
import Simard.CognitiveThreads.Mind
import Simard.Engineers.Archives
import Simard.Goals.StandingMarkers
import Simard.Guards.AclGrants
import Simard.Guards.GitGuardrails
import Simard.Guards.JoinedFlags
import Simard.Guards.ProtectedRepos
import Simard.Library.Gate
import Simard.Library.Words
import Simard.Merging.PendingChecks
import Simard.Overseer.GateRuns
import Simard.Overseer.OwnPrs
import Simard.Library.Drain
import Simard.Memory.BoardMirrors
import Simard.Overseer.DocPrs
import Simard.CognitiveThreads.CreativeIdeas
import Simard.Goals.SlugIds
import Simard.Library.Ansi
import Simard.Library.JsonText
import Simard.Library.LastWrite
import Simard.Library.Semaphore
import Simard.Memory.Consolidation
import Simard.Memory.IdeaGoals
import Simard.Memory.IdeaMemory
import Simard.Memory.IdeaStore
import Simard.Ooda.AdaptiveScaling
import Simard.Ooda.ConcurrentDispatch
import Simard.Ooda.DispatchRounds
import Simard.Overseer.RecipeResults
import Simard.RecipeOutput.Extract
import Simard.RecipeOutput.JsonAnswers
import Simard.Overseer.DeployThrottle
import Simard.Rpc.CircuitBreaker
import Simard.Engineers.SessionRegistry
import Simard.Improvements.Curation
import Simard.Improvements.Plans
import Simard.Journal.Secrets
import Simard.Library.Eviction
import Simard.Library.Labels
import Simard.Library.Redaction
import Simard.Memory.Reimport
import Simard.Signal.SessionStore
import Simard.SupplyChain.Signatures
import Simard.Library.Lists
import Simard.Overseer.NotifyRail
import Simard.Overseer.TickAsks
