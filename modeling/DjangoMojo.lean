import DjangoMojo.Account.GroupSaves
import DjangoMojo.Account.GroupTokens
import DjangoMojo.Account.KeyScope
import DjangoMojo.Account.PermissionFloor
import DjangoMojo.Account.SecretSettings
import DjangoMojo.Account.SettingsCacheKept
import DjangoMojo.Assistant.ApprovalBoundary
import DjangoMojo.Cases.CounterOrders
import DjangoMojo.Cases.ExpectedChange
import DjangoMojo.Cases.HandlersKept
import DjangoMojo.Cron.Matching
import DjangoMojo.Crypto.SecretsKept
import DjangoMojo.Crypto.VaultIntegrity
import DjangoMojo.Dates.LocalDay
import DjangoMojo.Edge.Blocklist
import DjangoMojo.Edge.DeployEvidence
import DjangoMojo.Edge.GenerationId
import DjangoMojo.Edge.HealingRuns
import DjangoMojo.Edge.QuietPaths
import DjangoMojo.Fetch.Fence
import DjangoMojo.Firewall.BlockAnswer
import DjangoMojo.Firewall.Escalation
import DjangoMojo.Firewall.FleetConverges
import DjangoMojo.Geofence.DecisionsCurrent
import DjangoMojo.Geofence.Tightening
import DjangoMojo.Geofence.UnknownGeography
import DjangoMojo.Incidents.Bookkeeping
import DjangoMojo.Incidents.Rules
import DjangoMojo.Incidents.SuppressionRuns
import DjangoMojo.Jobs.ChannelKeys
import DjangoMojo.Jobs.ChannelPass
import DjangoMojo.Jobs.DuplicatePublish
import DjangoMojo.Jobs.ExecutionBound
import DjangoMojo.Jobs.ExecutionFence
import DjangoMojo.Jobs.FanOut
import DjangoMojo.Jobs.NoLostJob
import DjangoMojo.Jobs.QueueOrder
import DjangoMojo.Jobs.Rearming
import DjangoMojo.Jobs.RetryBudget
import DjangoMojo.Jobs.ScheduledExpiry
import DjangoMojo.Jobs.SingleLeader
import DjangoMojo.Jobs.TaskCalendar
import DjangoMojo.Jobs.TaskCap
import DjangoMojo.Jobs.TerminalStatus
import DjangoMojo.Limits.AccountAttempts
import DjangoMojo.Limits.SlidingBound
import DjangoMojo.Limits.TrafficAccounting
import DjangoMojo.Logit.Secrets
import DjangoMojo.Metrics.Interference
import DjangoMojo.Metrics.RecordedOnce
import DjangoMojo.Phonehub.CanonicalForm
import DjangoMojo.Pools.OneHolder
import DjangoMojo.Realtime.Directory
import DjangoMojo.Receiver.ExactlyOnce
import DjangoMojo.Rest.Histogram
import DjangoMojo.Rest.ProtectedJson
import DjangoMojo.Rest.Search
import DjangoMojo.Rest.StatChips
import DjangoMojo.Sensor.AttributionStore
import DjangoMojo.Sensor.Candidates
import DjangoMojo.Sensor.FileNames
import DjangoMojo.Sensor.LogTail
import DjangoMojo.Sensor.OriginAmbiguity
import DjangoMojo.Sensor.ProofResolve
import DjangoMojo.Sensor.WindowTimes
