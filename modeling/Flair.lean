import Flair.Approvals.ApprovedCopies
import Flair.Archives.RestoreSelection
import Flair.Backups.CrashSafety
import Flair.Catchup.Deliveries
import Flair.ConfigFiles.NoLostUpdate
import Flair.Continuity.SharedSeqs
import Flair.Dedup.Clusters
import Flair.EmbeddingSpace.FailsClosed
import Flair.Federation.CleanupOutcome
import Flair.Federation.Convergence
import Flair.Federation.Pairing
import Flair.Federation.PresenceMerges
import Flair.Federation.PresenceRuns
import Flair.Federation.RetryClosure
import Flair.Feeds.FeedOutcome
import Flair.Hooks.MergeLaws
import Flair.Hooks.RepinnedCommands
import Flair.InstructionVersions.VersionRuns
import Flair.Integrity.IntegrityRecords
import Flair.Integrity.MemoryScan
import Flair.Integrity.NodeCompare
import Flair.Integrity.PagedReads
import Flair.Journal.UndoSafety
import Flair.Lexical.IndexInvariant
import Flair.Maintenance.MaintenanceRuns
import Flair.Memories.EphemeralExpiry
import Flair.MemoryLock.Atomicity
import Flair.MemoryLock.Safety
import Flair.Migrations.BatchCoverage
import Flair.Migrations.Envelope
import Flair.Migrations.Unforgotten
import Flair.OAuth.SingleUseRuns
import Flair.Purges.PurgeHonesty
import Flair.RateLimits.SlidingWindow
import Flair.RateLimits.WindowFairness
import Flair.Reembeds.ReembedOutcome
import Flair.Reflection.Distillation
import Flair.Reflection.OldestKept
import Flair.Reflection.PromotePolicy
import Flair.Relay.FailureReasons
import Flair.RemRestore.Reports
import Flair.Replay.Protection
import Flair.Retrieval.Noninterference
import Flair.Retrieval.RankFusion
import Flair.Snapshots.Containment
import Flair.SpokeSync.CursorRuns
import Flair.Supersedes.CloseRuns
import Flair.Usage.HiddenMemories
import Flair.Usage.HitTracking
import Flair.XAA.GrantOutcome
