import WorkTicket.Foundation.Transition
import WorkTicket.Foundation.Fallible
import WorkTicket.Foundation.OffsetPaging
import WorkTicket.Billing.Account
import WorkTicket.Billing.StateMachine
import WorkTicket.Billing.QuotaEngine
import WorkTicket.Tasks.MonthlyReset
import WorkTicket.Billing.JobCharges
import WorkTicket.Tasks.StaleJobs
import WorkTicket.Billing.ConcurrentCalls
import WorkTicket.Db.Rls
import WorkTicket.Foundation.Json
import WorkTicket.Billing.StripeWebhook
import WorkTicket.Billing.WebhookDelivery
import WorkTicket.Foundation.Program
import WorkTicket.Tasks.JobTask
import WorkTicket.Tasks.GatewayEntry
import WorkTicket.Tasks.JobLock
import WorkTicket.Tasks.AttemptBooks
import WorkTicket.Tasks.JobReservations
import WorkTicket.Tasks.LiveReservations
import WorkTicket.Tasks.DebtCarry
import WorkTicket.Billing.PlanAgreement
import WorkTicket.Billing.AiSwitch
import WorkTicket.Foundation.RowSessions
import WorkTicket.Billing.StatePath
import WorkTicket.Jobs.StatusCoupling
import WorkTicket.Estimates.Pricing
import WorkTicket.Estimates.Estimate
import WorkTicket.Estimates.Arithmetic
import WorkTicket.Estimates.ConcurrentEdits
import WorkTicket.Estimates.Generation
import WorkTicket.Tasks.AttemptEnd
import WorkTicket.Tasks.JobCompletion
import WorkTicket.Foundation.RecordedDigest
import WorkTicket.Tasks.SigningKey
import WorkTicket.Tasks.TaskSigning
import WorkTicket.Billing.Admission
import WorkTicket.Secrets.Rotation
import WorkTicket.Billing.Idempotency
import WorkTicket.Auth.Registration
import WorkTicket.Auth.Owners
import WorkTicket.Foundation.Transaction
import WorkTicket.Auth.TenantDeletion
import WorkTicket.Foundation.Batches
import WorkTicket.Integrations.ImportService
import WorkTicket.Integrations.ImportAccounting
import WorkTicket.Integrations.ImportRollback
import WorkTicket.Db.CircuitScripts
import WorkTicket.Estimates.WebPricing
import WorkTicket.Db.LocalBreaker
import WorkTicket.Jobs.TenantReferences
import WorkTicket.Foundation.LockOrder
import WorkTicket.Tasks.RowLocks
import WorkTicket.Mobile.OfflineQueue
import WorkTicket.Mobile.Uploads
import WorkTicket.Mobile.Stranded
import WorkTicket.Foundation.Files
import WorkTicket.Tasks.DlqFallback
import WorkTicket.Tasks.JobEvents
import WorkTicket.Foundation.TenantTables
import WorkTicket.Integrations.ServiceMethods
import WorkTicket.Integrations.PairedRuns
import WorkTicket.Integrations.TenantIsolation
import WorkTicket.Integrations.ForeignRows
import WorkTicket.Ai.LocalRateLimiter
import WorkTicket.Ai.RateLimiter
import WorkTicket.Ai.BucketKeys
import WorkTicket.Ai.DeniedRequests
import WorkTicket.Ai.ConcurrencyLimiter
import WorkTicket.Ai.WsConnections
import WorkTicket.Billing.CompanyConcurrency
import WorkTicket.Billing.DlqRouter
import WorkTicket.Billing.EventOrder
import WorkTicket.Middleware.RateLimit
import WorkTicket.Notifications.Delivery
import WorkTicket.Billing.Credits
import WorkTicket.Billing.DeniedReservations
import WorkTicket.Billing.QuotaAgreement
import WorkTicket.Billing.StoredPrecision
import WorkTicket.Billing.VersionedUpdates
import WorkTicket.Ai.EventReplay
import WorkTicket.Ai.WsGlobal
import WorkTicket.Auth.Erasure
import WorkTicket.Foundation.PythonJson
import WorkTicket.Foundation.Utf8
import WorkTicket.Jobs.QuotedJobs
import WorkTicket.Middleware.StreamSanitizer
import WorkTicket.Billing.CycleBackoff
import WorkTicket.Tasks.CompletedJobs
import WorkTicket.Ai.CircuitBreaker
import WorkTicket.Ai.ProcessJob
import WorkTicket.Estimates.JsonValidation
import WorkTicket.Estimates.Recomputation
import WorkTicket.Estimates.SnapshotDiff
import WorkTicket.Jobs.QuoteStatus
import WorkTicket.Ai.LocalWindows
import WorkTicket.Ai.RedisBreaker
import WorkTicket.Auth.PiiAccessors
import WorkTicket.Db.EncryptedString
import WorkTicket.Middleware.Csrf
import WorkTicket.Notifications.Openings
import WorkTicket.Ai.GatewayText
import WorkTicket.Ai.InputSanitizer
import WorkTicket.Ai.OutputSanitizer
import WorkTicket.Auth.ComplianceExport
import WorkTicket.Auth.ExportRoundTrip
import WorkTicket.Billing.InvoiceExport
import WorkTicket.Billing.DlqScan
import WorkTicket.Foundation.Loops
import WorkTicket.Integrations.CsvImport
import WorkTicket.Integrations.RemotePaging
import WorkTicket.Monitoring.Anomaly
import WorkTicket.Tasks.BeatLock
import WorkTicket.Tasks.Compensation
import WorkTicket.Tasks.OrphanRecovery
import WorkTicket.Tasks.RetryGuard
import WorkTicket.Tasks.SoftDeletePurge
import WorkTicket.Tasks.StalledScan
import WorkTicket.Db.Severity
import WorkTicket.Db.CircuitCheck
import WorkTicket.Db.SessionDependencies
import WorkTicket.Integrations.RetryRequest
import WorkTicket.Tasks.RetryBudget
import WorkTicket.Foundation.Base64
import WorkTicket.Analytics.Cursors
import WorkTicket.Ai.VisionDownloads
import WorkTicket.Billing.StripeIps
import WorkTicket.Foundation.Glob
import WorkTicket.Foundation.KeyStore
import WorkTicket.Db.TenantRedis
import WorkTicket.Db.TenantRuns
import WorkTicket.Foundation.Cuts
import WorkTicket.Ai.PromptEnvelope
import WorkTicket.Foundation.Interleaving
import WorkTicket.Ai.StructuredOutput
import WorkTicket.Ai.Gateway
import WorkTicket.Ai.GatewayBooks
import WorkTicket.Tasks.BrokerHealth
import WorkTicket.Foundation.TimedCopies
import WorkTicket.Auth.AccessGate
import WorkTicket.Ai.WsReauth
import WorkTicket.Foundation.OrderStatistics
import WorkTicket.Monitoring.Latency
import WorkTicket.Foundation.KeysetPaging
import WorkTicket.Analytics.EventPages
import WorkTicket.Foundation.RecentEntries
import WorkTicket.Billing.Abuse
import WorkTicket.Foundation.CappedLog
import WorkTicket.Notifications.Push
import WorkTicket.Db.SentinelUrl
import WorkTicket.Ai.WsSending
import WorkTicket.Ai.WsClosing
import WorkTicket.Foundation.Urls
import WorkTicket.Ai.AudioDownload
