import Godwit.Lib.Program
import Godwit.Core.Guardrails
import Godwit.Providers.Adapter
import Godwit.Api.ModelRouter
import Godwit.Api.RateLimit

set_option autoImplicit false

/-! # What the endpoints do to the world

The endpoints are programs over the operations below: everything that leaves the handler, or reads
state that other requests share. What the handlers compute themselves is in the modules that follow,
and `AppState` holds what they read without changing it. -/

namespace Godwit

/-- `ApiError` of `error.rs`. -/
inductive ApiError where
  | unauthorized
  | forbidden
  | notFound
  | badRequest (msg : String)
  | rateLimited (retryAfter : Option Nat)
  | budgetExceeded
  | internal
  | core (e : PasteurError)
  | database (msg : String)
  | moderationBlocked (categories : List String)
  | guardrails (e : GuardrailsError)
  deriving DecidableEq, Repr

/-- `From<PasteurError>`. -/
def ApiError.fromCore : PasteurError → ApiError
  | .notFound => .notFound
  | .auth _ => .unauthorized
  | .forbidden _ => .unauthorized
  | .validation msg => .badRequest msg
  | .rateLimited => .rateLimited none
  | e => .core e

/-- How a handler ends without a response of its own. -/
inductive Fault where
  | api (e : ApiError)
  | panic
  deriving DecidableEq, Repr

/-- The fields of an api key that the endpoints read. -/
structure ApiKey where
  id : Uuid
  userId : Uuid
  teamId : Option Uuid
  organizationId : Uuid
  allowedModels : List String
  rateLimitRequestsPerMinute : Option Int32
  rateLimitTokensPerMinute : Option Int32
  deriving DecidableEq, Repr

/-- A row of `organizations`, as far as the limits are concerned. -/
structure Organization where
  id : Uuid
  rateLimitRequestsPerMinute : Option Int32
  rateLimitTokensPerMinute : Option Int32
  deriving DecidableEq, Repr

/-- A row of `organizations`. -/
structure OrganizationRow extends Organization where
  name : String
  deriving DecidableEq, Repr

/-- `RequestLogEntry` of `proxy.rs`. -/
structure RequestLogEntry where
  apiKeyId : Uuid
  userId : Uuid
  organizationId : Uuid
  teamId : Option Uuid
  model : String
  provider : String
  providerModelId : String
  capability : String
  durationMs : Int32
  streamed : Bool
  status : String
  costUsd : Option Decimal
  tags : List String
  attemptNumber : Nat
  fallbackTriggered : Bool
  toolCallsCount : Option Nat
  agenticIteration : Option Nat
  deriving DecidableEq, Repr

/-- A result of the web search. -/
structure SearxngResult where
  title : String
  url : String
  content : Option String
  deriving DecidableEq, Repr

/-- The metrics of a chat request. -/
inductive MetricsEvent where
  | incrementActive (model provider : String)
  | decrementActive (model provider : String)
  | recordRequest (model provider status : String) (durationMs : Nat)
  | recordTokens (direction model : String) (tokens : UInt32)
  deriving DecidableEq, Repr

/-- What comes back from a plain HTTP request upstream: a transport failure, or a status with the
    body as text and as a document. -/
inductive UpstreamReply where
  | failed (msg : String)
  | response (status : Nat) (text : String) (body : Except String Json)
  deriving Repr

/-! ## Operations -/

/-- What the handlers ask of the clock, the router, the limits, the providers and the tools. -/
inductive GatewayOp where
  /-- A fresh version 4 identifier, as text. -/
  | newUuid
  /-- The milliseconds since the handler started. -/
  | elapsed
  /-- The system clock, in seconds. -/
  | unixTime
  | sleep (ms : Nat)
  /-- A sleep that a surrounding timeout may end. -/
  | timedSleep (ms : Nat)
  | resolve (modelRef : String) (capability : Capability)
  | recordLatency (modelId : Uuid) (ms : Nat)
  | getOrganization (id : Uuid)
  | checkAndConsume (request : LimitRequest)
  | checkEndUserBudget (userId orgId : Uuid)
  | checkTeamBudget (teamId : Uuid)
  | preCall (request : ChatCompletionRequest) (requestId : String)
  | postCall (response : ChatCompletionResponse) (requestId : String)
  | adapter (resolved : ResolvedModel) (request : AdapterRequest)
  /-- An adapter call that a surrounding timeout may end. -/
  | timedAdapter (resolved : ResolvedModel) (request : AdapterRequest)
  | adapterStream (resolved : ResolvedModel) (request : ChatCompletionRequest)
  /-- An HTTP request to the upstream of a resolved model. -/
  | passthrough (resolved : ResolvedModel) (method url : String) (body : Option Json)
  | mcpTools
  | mcpCall (name : String) (args : Json)
  | searxngSearch (profile : ResolvedProfile) (query : String)
  | metrics (event : MetricsEvent)
  | spawnRequestLog (log : RequestLogEntry)
  deriving Repr

/-- Answers: `none` of a guardrail call is a panic, `none` of a timed operation a timeout. -/
def GatewayOp.Answer : GatewayOp → Type
  | .newUuid => String
  | .elapsed => Nat
  | .unixTime => Int
  | .sleep _ => Unit
  | .timedSleep _ => Option Unit
  | .resolve _ _ => Except PasteurError ResolvedModel
  | .recordLatency _ _ => Unit
  | .getOrganization _ => Except PasteurError Organization
  | .checkAndConsume _ => LimitResult
  | .checkEndUserBudget _ _ => Except ApiError Unit
  | .checkTeamBudget _ => Except ApiError Unit
  | .preCall _ _ => Option (ChatCompletionRequest × Except GuardrailsError GuardrailsVerdict)
  | .postCall _ _ => Option (ChatCompletionResponse × Except GuardrailsError GuardrailsVerdict)
  | .adapter _ _ => Except ProviderError (ProviderResponse × UsageReport)
  | .timedAdapter _ _ => Option (Except ProviderError (ProviderResponse × UsageReport))
  | .adapterStream _ _ => Except ProviderError EventStream
  | .passthrough _ _ _ _ => UpstreamReply
  | .mcpTools => List Tool
  | .mcpCall _ _ => Except String String
  | .searxngSearch _ _ => Except ProviderError (List SearxngResult)
  | .metrics _ => Unit
  | .spawnRequestLog _ => Unit

/-- The operations and their answers. -/
abbrev Gateway : Signature := ⟨GatewayOp, GatewayOp.Answer⟩

/-- A handler or a part of one. -/
abbrev App (ε : Type) := Program Gateway ε

/-- The operations of a request with their answers, in order. -/
abbrev Trace := List (Step Gateway)

/-- Perform an operation of the gateway. -/
def ask {ε : Type} (o : GatewayOp) : App ε o.Answer := Program.perform (S := Gateway) o

/-- Perform an operation that may fail, and fail with it. -/
def orThrow {ε ε' α : Type} (f : ε → ε') : Except ε α → App ε' α
  | .ok a => .pure a
  | .error e => .throw (f e)

/-! ## State that the handlers only read -/

/-- The schema checker: how a schema is compiled, and the violations of a document. -/
structure SchemaChecker where
  /-- The text of the parser's error on a text that is not JSON. -/
  parseError : String → String
  compile : Json → Except String (Json → List String)

/-- `serde_json::from_slice` at the types the endpoints read bodies into. -/
structure BodyParser where
  value : Bytes → Option Json
  chatRequest : Bytes → Option ChatCompletionRequest

/-- The configuration and the libraries that the handlers share. -/
structure AppState where
  modelRouter : DbModelRouter
  pricing : Pricing
  schema : SchemaChecker
  body : BodyParser
  maxIterations : Nat
  iterationTimeoutSecs : Nat
  openaiWireStreaming : Bool
  searxng : Bool
  searxngProfile : Option ResolvedProfile

end Godwit
