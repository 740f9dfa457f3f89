import ValidEmailVerifier.Pipeline.Attempts
import ValidEmailVerifier.Pipeline.Leases
import ValidEmailVerifier.Pipeline.Finality
import ValidEmailVerifier.Pipeline.Completion
import ValidEmailVerifier.Pipeline.Numbering
import ValidEmailVerifier.Pipeline.Progress
import ValidEmailVerifier.Smtp.Verdicts
import ValidEmailVerifier.Smtp.Framing
import ValidEmailVerifier.Smtp.Replies
import ValidEmailVerifier.Pipeline.MergeStreams
import ValidEmailVerifier.Pipeline.ParseLedger
import ValidEmailVerifier.Pipeline.CsvRows
import ValidEmailVerifier.Pipeline.Resend
import ValidEmailVerifier.Pipeline.Terminal
import ValidEmailVerifier.Pipeline.SealedOutputs
import ValidEmailVerifier.Pipeline.OutputCounts
import ValidEmailVerifier.Policy.History
import ValidEmailVerifier.Policy.Rollbacks
import ValidEmailVerifier.Policy.ActiveFlag
import ValidEmailVerifier.Policy.Validations
import ValidEmailVerifier.Policy.CanaryWindows
import ValidEmailVerifier.Policy.CanarySafety
import ValidEmailVerifier.Pipeline.DecisionTrace
import ValidEmailVerifier.Engine.Normalization
import ValidEmailVerifier.Engine.Loading
import ValidEmailVerifier.Engine.ValidatorsAgree
import ValidEmailVerifier.Engine.SessionReplies
import ValidEmailVerifier.Engine.Providers
import ValidEmailVerifier.Engine.MxAttempts
import ValidEmailVerifier.Engine.RecipientProbe
import ValidEmailVerifier.Policy.ProviderHealth
import ValidEmailVerifier.Policy.Escalation
import ValidEmailVerifier.Policy.PoolModes
import ValidEmailVerifier.Fleet.Release
import ValidEmailVerifier.Fleet.Cleanup
import ValidEmailVerifier.Fleet.Autoscale
import ValidEmailVerifier.Fleet.AlertPasses
import ValidEmailVerifier.Fleet.IncidentLists
import ValidEmailVerifier.Fleet.Autoscalers
import ValidEmailVerifier.Fleet.RuntimeSettings
import ValidEmailVerifier.Policy.Telemetry
import ValidEmailVerifier.Policy.TelemetryTotals
import ValidEmailVerifier.Agent.ProcessControl
import ValidEmailVerifier.Billing.Invoices
import ValidEmailVerifier.Billing.BalanceLedger
import ValidEmailVerifier.Billing.Refunds
import ValidEmailVerifier.Billing.Completions
import ValidEmailVerifier.Billing.Reservations
import ValidEmailVerifier.SeedSend.Sends
import ValidEmailVerifier.SeedSend.Settlement
import ValidEmailVerifier.SeedSend.Deliveries
import ValidEmailVerifier.SeedSend.Orders
import ValidEmailVerifier.SeedSend.Webhooks
import ValidEmailVerifier.Pipeline.EmailDedupeStore
import ValidEmailVerifier.Pipeline.ProbeShards
import ValidEmailVerifier.Cache.WriteBack
import ValidEmailVerifier.Cache.CachedRows
import ValidEmailVerifier.Pipeline.ClaimSelection
import ValidEmailVerifier.Engine.PolicyOutages
import ValidEmailVerifier.Engine.ParsedAddresses
import ValidEmailVerifier.Engine.DomainLimits
import ValidEmailVerifier.Pipeline.ReasonTags
import ValidEmailVerifier.Pipeline.AttemptChains
import ValidEmailVerifier.Pipeline.Extraction
import ValidEmailVerifier.Pipeline.RowConservation
import ValidEmailVerifier.Pipeline.JobMetrics
import ValidEmailVerifier.Engine.DisposableDomains
import ValidEmailVerifier.Queues.IncidentTracker
import ValidEmailVerifier.Queues.HealthNotifier
import ValidEmailVerifier.Queues.MetricsRollups
import ValidEmailVerifier.Cache.OutcomeImport
import ValidEmailVerifier.Cache.NewestFeedback
import ValidEmailVerifier.Pipeline.BilledEmails
import ValidEmailVerifier.Pipeline.RewrittenOutputs
import ValidEmailVerifier.Pipeline.HandoffAttempts
import ValidEmailVerifier.Pipeline.HandoffConservation
import ValidEmailVerifier.Fleet.EnginePools
import ValidEmailVerifier.Fleet.BlacklistEvents
import ValidEmailVerifier.Engine.WorkerRuns
import ValidEmailVerifier.Cache.WrittenItems
import ValidEmailVerifier.Queues.Recovery
import ValidEmailVerifier.SeedSend.Recipients
import ValidEmailVerifier.Cache.MergedVerdicts
import ValidEmailVerifier.SeedSend.TruthLabels
