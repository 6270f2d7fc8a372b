import Godwit.Api.AgenticLoop
import Godwit.Api.Response

set_option autoImplicit false

/-! # One chat call and its fallbacks (`fallback.rs`, `call_chat` of `proxy.rs`) -/

namespace Godwit

/-- The upstream name of a row, or its public one when that is empty. -/
def streamModel (model : Model) : String :=
  if model.providerModelId.isEmpty then model.publicId else model.providerModelId

/-- Some tool of the request is one that the gateway resolves. -/
def hasGatewayTools (req : ChatCompletionRequest) : Bool :=
  (req.tools.getD []).any fun t =>
    containsText t.function.name "__" || nativeWebSearchTools.contains t.function.name

/-- `call_chat`: one call of the chain, streamed or not. -/
def callChat (state : AppState) (resolved : ResolvedModel) (req : ChatCompletionRequest) :
    App ProviderError (Response × Option UsageReport) := do
  if req.stream = some true then
    let events ← callAdapterStream resolved req
    let created ← ask .unixTime
    let id : String ← ask .newUuid
    let wire := if state.openaiWireStreaming
      then .openai ("chatcmpl-" ++ id) (streamModel resolved.model) created else .canonical
    pure (.sse events (hasGatewayTools req) wire, none)
  else
    match ← callAdapter resolved (.chat req) with
    | (.chat completion, report) =>
      orThrow .provider (validateCompletion state req.responseFormat completion)
      pure (.completion completion, some report)
    | (_, _) => Program.throw (.provider "unexpected provider response variant")

/-! ## The chain -/

/-- The fallbacks of a row, and two numbers that the chain does not look at. -/
structure FallbackConfig where
  models : List String
  maxAttempts : Nat
  timeoutPerAttemptSecs : Nat
  deriving DecidableEq, Repr

/-- `FallbackConfig::from_model_config`: none without a list of fallbacks. -/
def FallbackConfig.fromModelConfig (config : Json) : Option FallbackConfig :=
  match (config.get "fallbacks").bind Json.asArray with
  | none => none
  | some items =>
    some
      { models := items.filterMap Json.asStr
        maxAttempts := (((config.get "max_fallback_attempts").bind Json.asU64).getD 3) % 2 ^ 32
        timeoutPerAttemptSecs := ((config.get "timeout_per_attempt_secs").bind Json.asU64).getD 30 }

/-- `get_fallback_chain`: the reference itself, then the fallbacks of the row with that public id. -/
def getFallbackChain (state : AppState) (modelRef : String) : List String :=
  match state.modelRouter.catalog.getByPublicId modelRef with
  | .ok model =>
    match FallbackConfig.fromModelConfig model.config with
    | some config => modelRef :: config.models
    | none => [modelRef]
  | .error _ => [modelRef]

/-- `is_retryable_error`: a server error, too many requests, or a text about a timeout. -/
def isRetryableError : ProviderError → Bool
  | .http status _ => status ≥ 500 || status == 429
  | .provider msg => containsText msg "timeout" || containsText msg "timed out"
  | _ => false

/-- The answer of the chain and which model gave it. -/
structure FallbackResult where
  response : Response
  usage : UsageReport
  modelUsed : String
  modelPricing : Json
  attemptsMade : Nat
  fallbackTriggered : Bool
  deriving Repr

/-- One attempt: the reference is resolved, and the row called. -/
def callChatAttempt (state : AppState) (modelRef : String) (req : ChatCompletionRequest) :
    App ProviderError (Response × UsageReport × Json) := do
  let resolved ← orThrow (fun e => .provider e.toText) (← ask (.resolve modelRef .chat))
  let (response, usage) ← callChat state resolved req
  pure (response, usage.getD .default, resolved.model.pricing)

/-- The loop of `call_chat_with_fallback` from position `idx` of the chain on. -/
def callChatFrom (state : AppState) (req : ChatCompletionRequest) :
    (idx : Nat) → List String → Option ProviderError → App ProviderError FallbackResult
  | _, [], lastError =>
    Program.throw (lastError.getD (.provider "All fallback attempts failed"))
  | idx, modelRef :: rest, _ => do
    match ← (callChatAttempt state modelRef req).attempt with
    | .ok (response, usage, pricing) =>
      pure ⟨response, usage, modelRef, pricing, idx + 1, decide (0 < idx)⟩
    | .error e =>
      if rest.isEmpty || !isRetryableError e then Program.throw e
      else callChatFrom state req (idx + 1) rest (some e)

/-- `call_chat_with_fallback`: the chain of the reference, tried in order. -/
def callChatWithFallback (state : AppState) (initialModel : String) (req : ChatCompletionRequest) :
    App ProviderError FallbackResult :=
  callChatFrom state req 0 (getFallbackChain state initialModel) none

end Godwit
