import StreamPay.Library.InsertionMap
import StreamPay.Library.Lockstep
import StreamPay.Library.Interleaving
import StreamPay.Library.Uuid
import StreamPay.Library.KeysetPaging
import StreamPay.Library.JsNumber
import StreamPay.Library.JsString
import StreamPay.Library.Json
import StreamPay.Library.Redis
import StreamPay.Library.NumberedText
import StreamPay.Library.IsoDate
import StreamPay.Library.Express
import StreamPay.Library.Csv
import StreamPay.Library.OffsetPaging
import StreamPay.Library.DecimalDigits
import StreamPay.Library.StableSort
import StreamPay.Library.Double
import StreamPay.Library.JsonText
import StreamPay.Library.JsonValue
import StreamPay.Columns
import StreamPay.ProcessedIndexerEvents
import StreamPay.ProcessedEventClaims
import StreamPay.MeteringCheckpoints
import StreamPay.MeteringTransactions
import StreamPay.MeteringSerializability
import StreamPay.EventIngestion
import StreamPay.AcknowledgedUsage
import StreamPay.SettlementOutbox
import StreamPay.InMemorySettlementOutbox
import StreamPay.SettlementOutboxRepository
import StreamPay.SettlementOutboxStores
import StreamPay.SettlementOutboxAgreement
import StreamPay.Streams
import StreamPay.StreamExport
import StreamPay.ReconciliationAmounts
import StreamPay.Reconciliation
import StreamPay.ReconciliationCorrections
import StreamPay.ReconciliationRuns
import StreamPay.ReconciliationPositions
import StreamPay.ReconciliationDryRun
import StreamPay.JobLease
import StreamPay.WebhookDeliveries
import StreamPay.WebhookWorkers
import StreamPay.TerminalDeliveries
import StreamPay.DeliveryAcknowledgements
import StreamPay.SettlementOutboxService
import StreamPay.SettlementOutboxClaims
import StreamPay.SettlementOutboxLeases
import StreamPay.SettlementOutboxRuns
import StreamPay.SettlementOutboxWorkers
import StreamPay.SettlementOutboxDelivery
import StreamPay.SettlementOutboxAttempts
import StreamPay.SettlementOutboxFailures
import StreamPay.SettlementOutboxFaults
import StreamPay.Accrual
import StreamPay.StreamRepository
import StreamPay.StreamsApi
import StreamPay.StreamRequests
import StreamPay.StreamLifecycle
import StreamPay.StreamLocks
import StreamPay.StreamVersions
import StreamPay.AccrualHistory
import StreamPay.ConcurrentIngestion
import StreamPay.SettlementDeliveries
import StreamPay.ReplayProtection
import StreamPay.StreamReads
import StreamPay.DeletedStreams
import StreamPay.ChangingExport
import StreamPay.SettlementOutboxKeys
import StreamPay.AccrualBalance
import StreamPay.JsonCheckpoints
import StreamPay.InterruptedIngestion
import StreamPay.DeliveryAttempts
import StreamPay.ReconciliationResumption
import StreamPay.ReconciliationCounters
import StreamPay.ApiGate
import StreamPay.StreamCsv
import StreamPay.StreamPages
import StreamPay.WebhookSubscriptions
import StreamPay.StreamAmounts
import StreamPay.MeteringColumns
import StreamPay.RedisClient
import StreamPay.EventFingerprints
import StreamPay.EventPayloads
import StreamPay.ReconciliationOutcome
import StreamPay.OperationKeys
import StreamPay.ReconciliationDecimals
import StreamPay.WebhookSignatures
import StreamPay.SorobanClient
import StreamPay.SorobanRetries
import StreamPay.SorobanResponses
import StreamPay.ApiKeys
import StreamPay.ApiKeyEnvironment
import StreamPay.TransactionService
import StreamPay.SettlementOutboxSelection
import StreamPay.SettlementOutboxHolders
import StreamPay.SettlementOutboxSummaries
import StreamPay.AccrualSettlements
import StreamPay.WebhookService
import StreamPay.WebhookTurns
import StreamPay.WebhookOrigins
import StreamPay.WebhookFanOut
import StreamPay.WebhookVerdicts
import StreamPay.WebhookDeletions
import StreamPay.SettlementOutboxDatabase
import StreamPay.SettlementOutboxDatabaseLeases
import StreamPay.SettlementOutboxDatabaseRetries
import StreamPay.JobLeaseRuns
import StreamPay.IndexerEndpoint
import StreamPay.UsageRedelivery
import StreamPay.Library.PrefixCount
import StreamPay.Library.InsertionMapSums
import StreamPay.SettlementOutboxWaiting
import StreamPay.StreamRecords
import StreamPay.SettlementOutboxDrain
import StreamPay.Library.FormText
import StreamPay.HorizonClient
import StreamPay.ReconciliationArguments
import StreamPay.ReconciliationTool
import StreamPay.ReconciliationToolRuns
