import Godwit.Core.Error
import Godwit.Api.RateLimit
import Godwit.Api.Proofs.RateLimit
import Godwit.Core.PiiMasking
import Godwit.Core.Proofs.PiiMasking
import Godwit.Lib.Json
import Godwit.Lib.JsonText
import Godwit.Lib.Text
import Godwit.Providers.SseEgress
import Godwit.Providers.Proofs.SseEgress
import Godwit.Providers.Proofs.AnthropicStream
import Godwit.Api.LoadBalancer
import Godwit.Api.ModelRouter
import Godwit.Api.InFlight
import Godwit.Api.Proofs.ModelRouter
import Godwit.Api.Proofs.InFlight
import Godwit.Core.Chat
import Godwit.Core.Guardrails
import Godwit.Core.DefaultPatterns
import Godwit.Lib.Program
import Godwit.Api.Gateway
import Godwit.Api.Admission
import Godwit.Api.Resilience
import Godwit.Api.AgenticLoop
import Godwit.Api.Chat
import Godwit.Api.Media
import Godwit.Api.AnthropicProxy
import Godwit.Api.Router
import Godwit.Api.Ledger
import Godwit.Api.Proofs.Ledger
import Godwit.Api.Proofs.Chat
import Godwit.Api.Proofs.Media
import Godwit.Api.Proofs.PossibleRuns
import Godwit.Api.Proofs.Confinement
import Godwit.Api.Proofs.AdmissionControl
import Godwit.Api.Proofs.Attribution
import Godwit.Api.Proofs.Operations
import Godwit.Api.Proofs.Fairness
import Godwit.Core.Proofs.Guardrails
import Godwit.Core.Proofs.DefaultPatterns
import Godwit.Core.Proofs.Conversation
import Godwit.Api.Proofs.Mediation
import Godwit.Api.Proofs.Spending
import Godwit.Lib.Joint
import Godwit.Lib.Table
import Godwit.Lib.Session
import Godwit.Lib.Interleaving
import Godwit.Auth.Rbac
import Godwit.Admin.KeyStore
import Godwit.Admin.ApiKeys
import Godwit.Api.ChatPath
import Godwit.Api.Proofs.ChatPath
import Godwit.Admin.Proofs.ApiKeys
import Godwit.Admin.Proofs.Revocation
import Godwit.Admin.AccountStore
import Godwit.Admin.Users
import Godwit.Admin.Teams
import Godwit.Admin.Sessions
import Godwit.Admin.Proofs.Users
import Godwit.Admin.Proofs.Tokens
import Godwit.Admin.Proofs.Rotation
import Godwit.Admin.Proofs.Resets
import Godwit.Admin.Proofs.SessionRevocation
import Godwit.Admin.Proofs.LoginLimit
import Godwit.Admin.Proofs.SpendLogs
import Godwit.Api.Proofs.PreCall
import Godwit.Lib.Metering
import Godwit.Api.Budgets
import Godwit.Api.Proofs.Budgets
import Godwit.Api.Proofs.ProxyStreaming
import Godwit.Api.Proofs.RateLimitRejection
import Godwit.Api.Proofs.Transcript
import Godwit.Api.Proofs.FallbackAgreement
import Godwit.Lib.KeyRuns
import Godwit.Lib.ClassRegex
import Godwit.Api.ProxyStreaming
import Godwit.Core.ChatWire
import Godwit.Core.Proofs.ChatWire
import Godwit.Admin.Proofs.Teams
import Godwit.Lib.Window
import Godwit.Api.CircuitBreaker
import Godwit.Api.Proofs.SseBody
import Godwit.Lib.Clock
import Godwit.Lib.Recency
import Godwit.Providers.PromptCache
import Godwit.Providers.Proofs.PromptCache
import Godwit.Lib.Locks
import Godwit.Providers.PromptCacheLocks
import Godwit.Lib.JsonObject
import Godwit.Providers.OpenAiCache
import Godwit.Providers.Proofs.OpenAiCache
import Godwit.Providers.Proofs.OpenAiCacheHits
import Godwit.Providers.Proofs.PromptCacheLocks
import Godwit.Api.Proofs.CircuitBreaker
import Godwit.Api.Proofs.BreakerRecovery
import Godwit.Api.Proofs.SequentialLimit
import Godwit.Lib.Pieces
import Godwit.Lib.Utf8
import Godwit.Providers.ChatStream
import Godwit.Providers.Proofs.SseLines
import Godwit.Providers.Proofs.ChatStream
import Godwit.Providers.Proofs.OpenAiStream
import Godwit.Mcp.JsonRpc
import Godwit.Lib.JsonLines
import Godwit.Mcp.Proofs.JsonRpc
import Godwit.Mcp.Proofs.FrameReader
import Godwit.Mcp.Client
import Godwit.Mcp.Proofs.Client
import Godwit.Mcp.Registry
import Godwit.Mcp.Proofs.Registry
import Godwit.Api.Batch
import Godwit.Api.Proofs.Batch
import Godwit.Lib.Uri
import Godwit.Api.Proofs.BatchUrls
import Godwit.Providers.Anthropic
import Godwit.Providers.Proofs.AnthropicAnswer
import Godwit.Providers.Proofs.AnthropicTools
import Godwit.Api.Proofs.Latency
import Godwit.Lib.Edits
import Godwit.Core.Proofs.MaskArithmetic
import Godwit.Api.Proofs.RetryAfter
import Godwit.Api.Proofs.FallbackBound
import Godwit.Lib.OrderBy
import Godwit.Core.Proofs.Unmask
import Godwit.Mcp.Proofs.Server
import Godwit.Admin.Proofs.PasswordReuse
import Godwit.Admin.Proofs.Spend
import Godwit.Bin.Proofs.Bootstrap
import Godwit.Db.Proofs.InstanceWideCatalog
import Godwit.Providers.Proofs.PromptCacheQueue
import Godwit.Admin.Proofs.FailedPasswordChange
import Godwit.Api.Proofs.TokenEstimate
import Godwit.Admin.EndUsers
import Godwit.Admin.Proofs.PartialUpdates
import Godwit.Providers.GeminiCache
import Godwit.Providers.Proofs.GeminiCache
import Godwit.Api.Proofs.ToolStream
import Godwit.Api.Proofs.BatchCost
import Godwit.Api.BatchProcessor
import Godwit.Api.Proofs.BatchProcessor
import Godwit.Providers.Proofs.Prices
import Godwit.Admin.Proofs.EndUserCoherence
import Godwit.Core.Proofs.MaskFrame
import Godwit.Admin.Proofs.TagSpend
import Godwit.Api.Proofs.MessagesEgress
import Godwit.Providers.Gemini
import Godwit.Providers.Proofs.GeminiAnswer
import Godwit.Providers.Proofs.GeminiCachedCall
import Godwit.Providers.StreamTranslators
import Godwit.Providers.Proofs.StreamTranslators
import Godwit.Admin.Alerting
import Godwit.Admin.Proofs.Alerting
import Godwit.Providers.DecimalLibraries
import Godwit.Providers.Proofs.AcceptedPricing
import Godwit.Lib.ReadThenWrite
import Godwit.Admin.Organizations
import Godwit.Admin.Proofs.LostUpdates
import Godwit.Ui.Proofs.Http
import Godwit.Ui.Proofs.MetricsSocket
import Godwit.Ui.Proofs.ExportCsv
import Godwit.Api.Proofs.ActiveRequests
import Godwit.Api.Proofs.Retry
import Godwit.Api.Proofs.LeastBusy
import Godwit.Admin.Proofs.Provenance
import Godwit.Admin.Proofs.Gate
import Godwit.Admin.Proofs.Authentication
import Godwit.Admin.Proofs.ProviderProfiles
import Godwit.Admin.Models
import Godwit.Admin.Proofs.Models
import Godwit.Providers.Proofs.SelfHosted
