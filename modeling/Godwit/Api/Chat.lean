import Godwit.Api.Admission
import Godwit.Api.Fallback

set_option autoImplicit false

/-! # `/v1/chat/completions` (`chat_completions` of `proxy.rs`) -/

namespace Godwit

/-- `map_provider_error`: only an unsupported capability is the client's fault. -/
def mapProviderError : ProviderError → ApiError
  | .capabilityNotSupported msg => .badRequest msg
  | e => .core (.provider e.toText)

/-- `extract_tags_from_header`. -/
def extractTagsFromHeader : Option String → List String
  | none => []
  | some header => ((header.splitOn ",").map trimText).filter (!·.isEmpty)

/-- A value, or the panic of computing it. -/
def orPanic {α : Type} : Option α → App Fault α
  | some a => pure a
  | none => Program.throw .panic

/-- The categories of a moderation result, when they are a list of strings. -/
def blockedCategories (result : ModerationResult) : List String :=
  (result.categories.asArray.getD []).filterMap Json.asStr

/-- An event for the metrics. -/
def recordMetrics {ε : Type} (event : MetricsEvent) : App ε Unit := ask (.metrics event)

/-! ## Guardrails -/

/-- The guardrails before the call: the request that goes on. -/
def guardRequest (model provider requestId : String) (req : ChatCompletionRequest) :
    App Fault ChatCompletionRequest := do
  match ← ask (.preCall req requestId) with
  | none => Program.throw .panic
  | some (req, .ok .allowed) => pure req
  | some (_, .ok (.blocked result)) =>
    recordMetrics (.incrementActive model provider)
    recordMetrics (.decrementActive model provider)
    Program.throw (.api (.moderationBlocked (blockedCategories result)))
  | some (_, .error e) =>
    recordMetrics (.incrementActive model provider)
    recordMetrics (.decrementActive model provider)
    Program.throw (.api (.guardrails e))

/-- The guardrails after the call: the completion that is returned. -/
def guardCompletion (model provider requestId : String) (completion : ChatCompletionResponse) :
    App Fault ChatCompletionResponse := do
  match ← ask (.postCall completion requestId) with
  | none => Program.throw .panic
  | some (completion, .ok .allowed) => pure completion
  | some (_, .ok (.blocked result)) =>
    recordMetrics (.decrementActive model provider)
    Program.throw (.api (.moderationBlocked (blockedCategories result)))
  | some (_, .error e) =>
    recordMetrics (.decrementActive model provider)
    Program.throw (.api (.guardrails e))

/-! ## The two ways to a response -/

/-- What the rest of the handler needs to know about the response. -/
structure ChatServed where
  response : Response
  usage : Option UsageReport
  modelUsed : String
  modelPricing : Json
  attemptsMade : Nat
  fallbackTriggered : Bool
  toolCallsCount : Option Nat
  agenticIteration : Option Nat
  deriving Repr

/-- The metrics of a request that failed at the provider, and its error. -/
def failChat {α : Type} (model provider : String) (e : ApiError) : App Fault α := do
  recordMetrics (.decrementActive model provider)
  let duration ← ask .elapsed
  recordMetrics (.recordRequest model provider "error" duration)
  Program.throw (.api e)

/-- A request with tools that is not streamed runs the agentic loop on the admitted model. -/
def serveAgentic (state : AppState) (resolved : ResolvedModel) (model provider requestId : String)
    (req : ChatCompletionRequest) : App Fault ChatServed := do
  let req ← mergeAgenticTools state req
  match ← (agenticExecute state resolved req).attempt with
  | .error e => failChat model provider e
  | .ok (completion, totalUsage) =>
    let completion ← guardCompletion model provider requestId completion
    let toolCount := (completion.choices.map fun c => (c.message.toolCalls.getD []).length).sum
    let _ ← orPanic (state.pricing.computeCost resolved.model.pricing .chat totalUsage)
    pure ⟨.completion completion, some totalUsage, resolved.model.providerModelId,
      resolved.model.pricing, 1, false, some toolCount, some state.maxIterations⟩

/-- Every other request goes through the fallback chain. -/
def serveFallback (state : AppState) (model provider : String) (req : ChatCompletionRequest) :
    App Fault ChatServed := do
  match ← (callChatWithFallback state req.model req).attempt with
  | .error e => failChat model provider (mapProviderError e)
  | .ok result =>
    pure ⟨result.response, some result.usage, result.modelUsed, result.modelPricing,
      result.attemptsMade, result.fallbackTriggered, none, none⟩

/-! ## The handler -/

/-- The tokens of an answer, as far as the usage has them. -/
def recordUsage {ε : Type} (model : String) (usage : Option UsageReport) : App ε Unit := do
  match usage.bind UsageReport.promptTokens with
  | some tokens => recordMetrics (.recordTokens "input" model tokens.toUInt32)
  | none => pure ()
  match usage.bind UsageReport.completionTokens with
  | some tokens => recordMetrics (.recordTokens "output" model tokens.toUInt32)
  | none => pure ()

/-- The log entry of a served request. -/
def chatLog (apiKey : ApiKey) (primary : Model) (served : ChatServed) (streamed : Bool)
    (tags : List String) (costUsd : Option Decimal) (durationMs : Nat) : RequestLogEntry where
  apiKeyId := apiKey.id
  userId := apiKey.userId
  organizationId := apiKey.organizationId
  teamId := apiKey.teamId
  model := served.modelUsed
  provider := primary.provider
  providerModelId := primary.providerModelId
  capability := Capability.chat.asStr
  durationMs := Int32.ofNat durationMs
  streamed := streamed
  status := "success"
  costUsd := costUsd
  tags := tags
  attemptNumber := served.attemptsMade
  fallbackTriggered := served.fallbackTriggered
  toolCallsCount := served.toolCallsCount
  agenticIteration := served.agenticIteration

/-- Metrics and log of a served request. -/
def finishChat (state : AppState) (apiKey : ApiKey) (primary : Model) (model provider : String)
    (streamed : Bool) (tags : List String) (served : ChatServed) : App Fault Response := do
  recordMetrics (.decrementActive model provider)
  let duration ← ask .elapsed
  recordMetrics (.recordRequest served.modelUsed provider "success" duration)
  recordUsage served.modelUsed served.usage
  let costUsd ← match served.usage with
    | some usage => orPanic (state.pricing.computeCost served.modelPricing .chat usage)
    | none => pure none
  let duration ← ask .elapsed
  ask (.spawnRequestLog (chatLog apiKey primary served streamed tags costUsd duration))
  pure served.response

/-- The request offers tools. -/
def hasTools (req : ChatCompletionRequest) : Bool := (req.tools.getD []) matches _ :: _

/-- The client asks for a stream. -/
def streams (req : ChatCompletionRequest) : Bool := req.stream = some true

/-- The handler on a parsed request. -/
def chatCompletionsOn (state : AppState) (apiKey : ApiKey) (tags : List String) (requestId : String)
    (req : ChatCompletionRequest) : App Fault Response := do
  let primary ← orThrow (fun e => .api (.fromCore e)) (← ask (.resolve req.model .chat))
  let provider := primary.model.provider
  (checkAdmission apiKey primary.model (estimateRequestTokens req)).mapError Fault.api
  let guarded ← guardRequest req.model provider requestId req
  recordMetrics (.incrementActive req.model provider)
  let served ←
    if hasTools req && !streams req then
      serveAgentic state primary req.model provider requestId guarded
    else serveFallback state req.model provider guarded
  finishChat state apiKey primary.model req.model provider (streams req) tags served

/-- `chat_completions`; a body that is not a chat request panics. -/
def chatCompletions (state : AppState) (apiKey : ApiKey) (tagsHeader : Option String) (body : Bytes) :
    App Fault Response := do
  let requestId ← ask .newUuid
  let req ← orPanic (state.body.chatRequest body)
  chatCompletionsOn state apiKey (extractTagsFromHeader tagsHeader) requestId req

end Godwit
