import FineractBi.Discipline
import FineractBi.Routing
import FineractBi.Lib.Relation
import FineractBi.Lib.Newest
import FineractBi.Contract
import FineractBi.ApplyBatch
import FineractBi.Convergence
import FineractBi.Batching
import FineractBi.ChangeLog
import FineractBi.WriteFence
import FineractBi.FenceSafety
import FineractBi.SinkSafety
import FineractBi.LockOrder
import FineractBi.EpochReuse
import FineractBi.CutoverGuard
import FineractBi.Registry
import FineractBi.Generations
import FineractBi.TenantIdentity
import FineractBi.RowSecurity
import FineractBi.CaptureStamp
import FineractBi.Reconciler
import FineractBi.Extractor
import FineractBi.SourceReconcile
import FineractBi.DeleteReconcile
import FineractBi.Backfill
import FineractBi.AsOf
import FineractBi.Delinquency
import FineractBi.StatusQuery
import FineractBi.EngineParity
import FineractBi.Lib.Csv
import FineractBi.Lib.IsoTime
import FineractBi.Lib.Window
import FineractBi.Staging
import FineractBi.LoanSnapshot
import FineractBi.FactBuild
import FineractBi.ChangeTracking
import FineractBi.FactIncremental
import FineractBi.BatchLog
import FineractBi.RepaymentMart
import FineractBi.DelinquencyEventFact
import FineractBi.FactContent
import FineractBi.ParMart
import FineractBi.Lib.Refresh
import FineractBi.PortfolioHealth
import FineractBi.MartRefresh
import FineractBi.MartRuns
import FineractBi.MartTracking
import FineractBi.MartIncremental
import FineractBi.RepaymentRefresh
import FineractBi.RepaymentTracking
import FineractBi.RepaymentIncremental
import FineractBi.ShadowReconcile
import FineractBi.SourceNames
import FineractBi.Secrets
import FineractBi.Shards
import FineractBi.CopyRoundTrip
import FineractBi.ParserErrors
import FineractBi.QuarantineBreaker
import FineractBi.OwnershipApply
import FineractBi.AuditTrail
import FineractBi.Lib.Lease
import FineractBi.RunLock
import FineractBi.Lib.Journal
import FineractBi.OwnershipAudit
import FineractBi.DataTests
import FineractBi.Lib.Pattern
import FineractBi.ConnectorConfig
import FineractBi.RetiredSource
import FineractBi.RetiredMarts
import FineractBi.OrphanSources
import FineractBi.LoadTest
import FineractBi.LoadVerifier
