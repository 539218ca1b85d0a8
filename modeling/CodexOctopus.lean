import CodexOctopus.LeaseKept
import CodexOctopus.AccountHolds
import CodexOctopus.UsageConservation
import CodexOctopus.KeptUsage
import CodexOctopus.StreamRetry
import CodexOctopus.EventDelivery
import CodexOctopus.WebsocketGate
import CodexOctopus.RelayReplays
import CodexOctopus.SessionOrphans
import CodexOctopus.ScopeKept
import CodexOctopus.SessionCap
import CodexOctopus.TokenOrder
import CodexOctopus.RefreshFailure
import CodexOctopus.RefreshFlights
import CodexOctopus.ForwardedRequests
import CodexOctopus.KeyModels
import CodexOctopus.ExactChoice
import CodexOctopus.HealthTiers
import CodexOctopus.QuotaBlock
import CodexOctopus.GraceChoice
import CodexOctopus.PortableAccounts
import CodexOctopus.FirewallClientIp
import CodexOctopus.LeaderElection
import CodexOctopus.CacheInvalidation
import CodexOctopus.ProcessCaches
import CodexOctopus.CircuitBreaker
import CodexOctopus.LimitEnforcement
import CodexOctopus.TotpReplay
import CodexOctopus.RequestBudget
import CodexOctopus.RateLimitRecovery
import CodexOctopus.RateLimiter
import CodexOctopus.KiroResponses
import CodexOctopus.KiroTranslator
import CodexOctopus.AutomationRuns
import CodexOctopus.ImageFetch
import CodexOctopus.OwnerRelay
import CodexOctopus.BridgeRing
import CodexOctopus.RequestDecompression
import CodexOctopus.UsageTrends
