import Hygie.Prog
import Hygie.ProgExec
import Hygie.PyText
import Hygie.Schema
import Hygie.Wire
import Hygie.ArrShared
import Hygie.Radarr
import Hygie.Sonarr
import Hygie.ArrContent
import Hygie.ArrIdentity
import Hygie.MediaServers
import Hygie.Qbit
import Hygie.DeletionPipeline
import Hygie.MediaRouting
import Hygie.ConsolidatedMedia
import Hygie.TorrentOwnership
import Hygie.Consolidation
import Hygie.ConsolidatedArr
import Hygie.GuardedRuns
import Hygie.ClaimBoard
import Hygie.QueueMachine
import Hygie.QueueLaws
import Hygie.Alternatives
import Hygie.ExpertRules
import Hygie.RuleBuilder
import Hygie.LegacyConditions
import Hygie.RuleMigration
import Hygie.MigratedMeaning
import Hygie.SeerrPurge
import Hygie.PlexMirror
import Hygie.PyInt
import Hygie.ServerIds
import Hygie.QueueTable
import Hygie.WatchGuard
import Hygie.ConsolidatedWatch
import Hygie.DryRun
import Hygie.ServerIsolation
import Hygie.ServerList
import Hygie.ServerSwitch
import Hygie.RequesterFilter
import Hygie.ServiceState
import Hygie.Resumption
import Hygie.ThresholdNotifications
import Hygie.Accounts
import Hygie.Revocation
import Hygie.RateLimiter
import Hygie.CircuitBreaker
import Hygie.SettingsStore
import Hygie.JobLock
import Hygie.PooledConnections
import Hygie.Backups
import Hygie.IsoDates
import Hygie.Loops
import Hygie.WatchReaders
import Hygie.DueSelection
import Hygie.PlexRows
import Hygie.WatchAdvance
import Hygie.GroupWatch
import Hygie.GroupCounts
import Hygie.Reevaluation
import Hygie.MigrationRestarts
import Hygie.EngineChange
import Hygie.Rescans
import Hygie.Ignoring
import Hygie.GracePeriods
import Hygie.Insertions
import Hygie.DeletionNotices
import Hygie.LegacyAdapter
import Hygie.OrderedDict
import Hygie.RadarrCache
import Hygie.StoredRules
import Hygie.DamagedRules
import Hygie.RuleStore
import Hygie.ServerUpdates
import Hygie.LikePatterns
import Hygie.Search
import Hygie.Placeholders
import Hygie.SqlText
import Hygie.Upserts
import Hygie.ImageProxy
import Hygie.TokenRefresh
import Hygie.PlexOverlays
import Hygie.Startup
import Hygie.SeerrImport
import Hygie.MaskedSettings
import Hygie.EmbyCollection
import Hygie.Aggregates
import Hygie.WatchLaws
import Hygie.ThresholdTexts
import Hygie.ProgTriples
import Hygie.JobRuns
import Hygie.JobLedger
import Hygie.JobReports
import Hygie.JobCoverage
import Hygie.EncryptionKey
import Hygie.StorageCache
import Hygie.BatchReports
import Hygie.Pages
import Hygie.QueuePages
