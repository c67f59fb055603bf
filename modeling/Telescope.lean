import Telescope.Redis.Consistency
import Telescope.Parquet.TieredArchive
import Telescope.Parquet.TieredPaging
import Telescope.Parquet.CompactionSafety
import Telescope.InMemory.Paging
import Telescope.Prune.ScopedAgreement
import Telescope.MikroOrm.Prune
import Telescope.Recorder.StoreRetry
import Telescope.Alerts.FamilyMarks
import Telescope.ClickHouse.FamilyWindow
import Telescope.ClickHouse.UpdateFold
import Telescope.Observe.Assembly
import Telescope.Observe.Outage
import Telescope.Auth.Revocation
import Telescope.Auth.SessionCookie
import Telescope.Profiling.Conservation
import Telescope.AgentMetrics.RegistryConservation
import Telescope.Nest.ClientErrorEndpoint
import Telescope.Observe.Slicing
import Telescope.Profiling.Slots
import Telescope.AgentMetrics.UsageWindow
import Telescope.Nest.AlertCompleteness
import Telescope.Observe.TransportAccounting
import Telescope.Observe.Billing
import Telescope.Redaction.Noninterference
import Telescope.Redaction.SizeBound
import Telescope.Recorder.Reentrancy
import Telescope.Alerts.Isolation
import Telescope.Alerts.TrackerExactness
import Telescope.Alerts.Independence
import Telescope.Metrics.PathAgreement
import Telescope.Rollup.EstimatePercentile
import Telescope.Parquet.ColdBatch
import Telescope.Prune.CycleGuard
import Telescope.Prune.CleanCycle
import Telescope.Metrics.CapturedNesting
import Telescope.Redis.Rollups
import Telescope.MikroOrm.FilterExactness
import Telescope.Query.FamilyHash
import Telescope.Observe.EntryMetricsConservation
import Telescope.Http.Transparency
import Telescope.Http.Secrecy
import Telescope.Nest.TagPages
import Telescope.Parquet.LocalCacheSafety
import Telescope.Nest.ClientErrorEnrichment
import Telescope.Pulse.PulseHydration
import Telescope.Otel.Scrape
import Telescope.BullMq.QueueManager
import Telescope.Ai.DiagnosisRuns
import Telescope.Nest.CrashExit
import Telescope.Nest.ReplayConfinement
import Telescope.Nest.CaptureContainment
import Telescope.Config.Retention
import Telescope.MikroOrm.Leases
import Telescope.MikroOrm.Paging
