import Godwit.Api.Router

set_option autoImplicit false

/-! # Which operations the parts of the chat endpoint perform

Every operation of a request is of one kind, and most parts of the endpoint perform operations of few
kinds only: a specification that is about one kind can pass over all the others. -/

namespace Godwit

/-- Which part of the gateway an operation asks. -/
inductive OpKind where
  | system
  | routing
  | admission
  | guardrails
  | provider
  | tools
  | metrics
  | log
  deriving DecidableEq, Repr

/-- The part of each operation. -/
def GatewayOp.kind : GatewayOp → OpKind
  | .newUuid => .system
  | .elapsed => .system
  | .unixTime => .system
  | .sleep _ => .system
  | .timedSleep _ => .system
  | .resolve _ _ => .routing
  | .recordLatency _ _ => .routing
  | .getOrganization _ => .admission
  | .checkAndConsume _ => .admission
  | .checkEndUserBudget _ _ => .admission
  | .checkTeamBudget _ => .admission
  | .preCall _ _ => .guardrails
  | .postCall _ _ => .guardrails
  | .adapter _ _ => .provider
  | .timedAdapter _ _ => .provider
  | .adapterStream _ _ => .provider
  | .passthrough _ _ _ _ => .provider
  | .mcpTools => .tools
  | .mcpCall _ _ => .tools
  | .searxngSearch _ _ => .tools
  | .metrics _ => .metrics
  | .spawnRequestLog _ => .log

/-- The messages that an operation hands to an adapter. -/
def GatewayOp.chatMessages : GatewayOp → Option (List ChatMessage)
  | .adapter _ (.chat req) => some req.messages
  | .timedAdapter _ (.chat req) => some req.messages
  | .adapterStream _ req => some req.messages
  | _ => none

theorem kind_of_chatMessages {o : GatewayOp} {messages : List ChatMessage}
    (h : o.chatMessages = some messages) : o.kind = .provider := by
  cases o <;> first | rfl | simp [GatewayOp.chatMessages] at h

/-! ## Any class of operations -/

section Only

variable {ε ε' α : Type} {P : GatewayOp → Prop}

theorem orThrow_only {g : ε' → ε} {r : Except ε' α} : (orThrow g r).Only P := by
  cases r <;> exact trivial

theorem orPanic_only {a : Option α} : (orPanic a).Only P := by
  cases a <;> exact trivial

/-- The guardrails after the call. -/
theorem guardCompletion_only {model provider requestId : String}
    {completion : ChatCompletionResponse} (hmetrics : ∀ o, o.kind = .metrics → P o)
    (hpost : P (.postCall completion requestId)) :
    (guardCompletion model provider requestId completion).Only P := by
  refine .perform hpost fun verdict => ?_
  match verdict with
  | none => exact trivial
  | some (_, .ok .allowed) => exact trivial
  | some (_, .ok (.blocked _)) => exact .perform (hmetrics _ rfl) fun _ => trivial
  | some (_, .error _) => exact .perform (hmetrics _ rfl) fun _ => trivial

theorem withRetry_only {policy : RetryPolicy} {sleep : Nat → App ε Unit}
    {f : App ε (Except ProviderError α)} (hsleep : ∀ ms, (sleep ms).Only P) (hf : f.Only P) :
    (withRetry policy sleep f).Only P := by
  suffices h : ∀ left attempt, (retryFrom policy sleep f left attempt).Only P from h _ _
  intro left
  induction left with
  | zero => exact fun _ => hf
  | succ left ih =>
      intro attempt
      refine .bind hf fun out => ?_
      cases out with
      | ok a => exact trivial
      | error e =>
          dsimp only
          split_ifs
          · exact .bind (hsleep _) fun _ => ih _
          · exact trivial

variable {state : AppState} {resolved : ResolvedModel} {req : ChatCompletionRequest}
  (hsystem : ∀ o, o.kind = .system → P o)

include hsystem

theorem callAdapter_only {request : AdapterRequest} (hcall : P (.adapter resolved request)) :
    (callAdapter resolved request).Only P := by
  refine .bind (withRetry_only (fun ms => ?_) ?_) fun out => .ofExcept out
  · exact ⟨hsystem _ rfl, fun _ => trivial⟩
  · exact ⟨hcall, fun _ => trivial⟩

theorem callAdapterStream_only (hcall : P (.adapterStream resolved req)) :
    (callAdapterStream resolved req).Only P := by
  refine .bind (withRetry_only (fun ms => ?_) ?_) fun out => .ofExcept out
  · exact ⟨hsystem _ rfl, fun _ => trivial⟩
  · exact ⟨hcall, fun _ => trivial⟩

/-- A round of the agentic loop. -/
theorem runIteration_only (hcall : P (.timedAdapter resolved (.chat req))) :
    (runIteration resolved req).Only P := by
  refine .bind (withRetry_only (fun ms => ?_) ?_) fun out => ?_
  · refine .perform (hsystem _ rfl) fun answer => ?_
    cases answer <;> exact trivial
  · refine .perform hcall fun answer => ?_
    cases answer <;> exact trivial
  · cases out with
    | error e => exact trivial
    | ok a =>
        obtain ⟨response, usage⟩ := a
        cases response <;> exact trivial

variable (hcall : ∀ o, o.chatMessages = some req.messages → P o)

include hcall

theorem callChat_only : (callChat state resolved req).Only P := by
  unfold Godwit.callChat
  split
  · exact .bind (callAdapterStream_only hsystem (hcall _ rfl)) fun _ =>
      .perform (hsystem _ rfl) fun _ => .perform (hsystem _ rfl) fun _ => trivial
  · refine .bind (callAdapter_only hsystem (hcall _ rfl)) fun a => ?_
    obtain ⟨response, usage⟩ := a
    cases response with
    | chat completion => exact .bind orThrow_only fun _ => trivial
    | image | video | audioStt | embedding | bytes | json => exact trivial

variable (hresolve : ∀ modelRef, P (.resolve modelRef .chat))

include hresolve

theorem callChatAttempt_only {modelRef : String} : (callChatAttempt state modelRef req).Only P :=
  .perform (hresolve modelRef) fun _ => .bind orThrow_only fun _ =>
    .bind (callChat_only hsystem hcall) fun _ => trivial

theorem callChatFrom_only {idx : Nat} {chain : List String} {lastError : Option ProviderError} :
    (callChatFrom state req idx chain lastError).Only P := by
  induction chain generalizing idx lastError with
  | nil => exact trivial
  | cons modelRef rest ih =>
      refine .bind (callChatAttempt_only hsystem hcall hresolve).attempt fun outcome => ?_
      cases outcome with
      | ok a => exact trivial
      | error e =>
          dsimp only
          split_ifs
          · exact trivial
          · exact ih

variable (hmetrics : ∀ o, o.kind = .metrics → P o)

include hmetrics

theorem serveFallback_only {model provider : String} :
    (serveFallback state model provider req).Only P := by
  refine .bind (callChatFrom_only hsystem hcall hresolve).attempt fun outcome => ?_
  cases outcome with
  | ok result => exact trivial
  | error e =>
      exact .perform (hmetrics _ rfl) fun _ => .perform (hsystem _ rfl) fun _ =>
        .perform (hmetrics _ rfl) fun _ => trivial

end Only

section Fallbacks

variable {α : Type} {P : GatewayOp → Prop} {capability : Capability}
  {admitOn : Model → App ApiError Unit} {attemptOn : ResolvedModel → App ProviderError α}
  (hresolve : ∀ modelRef, P (.resolve modelRef capability)) (hlimit : ∀ model, (admitOn model).Only P)
  (hattempt : ∀ resolved, (attemptOn resolved).Only P)

include hresolve hlimit hattempt

theorem fallbackLoop_only {chain : List String} {lastErr : ProviderError}
    {rateLimitedErr : Option ApiError} :
    (fallbackLoop capability admitOn attemptOn chain lastErr rateLimitedErr).Only P := by
  induction chain generalizing lastErr rateLimitedErr with
  | nil => exact trivial
  | cons fallbackId rest ih =>
      refine .perform (hresolve fallbackId) fun answer => ?_
      cases answer with
      | error e => exact ih
      | ok resolved =>
          refine .bind (hlimit resolved.model).attempt fun limited => ?_
          cases limited with
          | error e => exact ih
          | ok _ =>
              refine .bind (hattempt resolved).attempt fun outcome => ?_
              cases outcome with
              | ok a => exact trivial
              | error e => exact ih

theorem withFallbacks_only {resolved : ResolvedModel} :
    (withFallbacks capability admitOn attemptOn resolved).Only P := by
  refine .bind (hattempt resolved).attempt fun outcome => ?_
  cases outcome with
  | ok a => exact trivial
  | error e => exact fallbackLoop_only hresolve hlimit hattempt

end Fallbacks

/-! ## Kinds -/

/-- The program performs operations of these kinds only. -/
abbrev Performs {ε α : Type} (kinds : List OpKind) (p : App ε α) : Prop :=
  p.Only fun (o : GatewayOp) => o.kind ∈ kinds

namespace Performs

variable {ε ε' α β : Type} {kinds kinds' : List OpKind}

theorem ask {o : GatewayOp} {f : o.Answer → App ε α} (ho : o.kind ∈ kinds)
    (hf : ∀ answer, Performs kinds (f answer)) : Performs kinds (ask o >>= f) :=
  Program.Only.perform ho hf

theorem askOnly {o : GatewayOp} (ho : o.kind ∈ kinds) :
    Performs kinds (Godwit.ask o : App ε o.Answer) :=
  ⟨ho, fun _ => trivial⟩

theorem mono {p : App ε α} (h : Performs kinds p) (hsub : kinds ⊆ kinds') : Performs kinds' p :=
  Program.Only.mono h fun _ ho => hsub ho

/-! ## Admission, guardrails, metrics and log -/

theorem consumeLimit {apiKey : ApiKey} {org : Organization} {model : Model} {estimatedTokens : Nat} :
    Performs [.admission] (consumeLimit apiKey org model estimatedTokens) := by
  refine ask (by simp [GatewayOp.kind]) fun answer => ?_
  cases answer <;> exact trivial

theorem checkAdmission {apiKey : ApiKey} {model : Model} {estimatedTokens : Nat} :
    Performs [.admission] (checkAdmission apiKey model estimatedTokens) := by
  refine .bind (ask (by simp [GatewayOp.kind]) fun answer => .bind orThrow_only fun org => consumeLimit)
    fun _ => .bind (ask (by simp [GatewayOp.kind]) fun answer => ?_) fun _ => ?_
  · cases answer <;> exact trivial
  · unfold checkTeamBudget
    cases apiKey.teamId with
    | none => exact trivial
    | some teamId =>
        refine ask (by simp [GatewayOp.kind]) fun answer => ?_
        cases answer <;> exact trivial

theorem recordMetrics {event : MetricsEvent} (hkinds : .metrics ∈ kinds) :
    Performs kinds (recordMetrics event : App ε Unit) :=
  askOnly hkinds

theorem guardRequest {model provider requestId : String} {req : ChatCompletionRequest} :
    Performs [.guardrails, .metrics] (guardRequest model provider requestId req) := by
  refine ask (by simp [GatewayOp.kind]) fun answer => ?_
  have hmetrics : ∀ e : Fault, Performs [.guardrails, .metrics]
      (do
        Godwit.recordMetrics (.incrementActive model provider)
        Godwit.recordMetrics (.decrementActive model provider)
        Program.throw e : App Fault ChatCompletionRequest) := fun e =>
    .bind (recordMetrics (by simp)) fun _ => .bind (recordMetrics (by simp)) fun _ => trivial
  match answer with
  | none => exact trivial
  | some (_, .ok .allowed) => exact trivial
  | some (_, .ok (.blocked _)) => exact hmetrics _
  | some (_, .error _) => exact hmetrics _

theorem failChat {model provider : String} {e : ApiError} :
    Performs [.metrics, .system] (failChat model provider e : App Fault α) :=
  .bind (recordMetrics (by simp)) fun _ => ask (by simp [GatewayOp.kind]) fun _ =>
    .bind (recordMetrics (by simp)) fun _ => trivial

theorem finishRow {state : AppState} {apiKey : ApiKey} {used : Model} {capability : Capability}
    {streamed : Bool} {usage : UsageReport} :
    Performs [.system, .log, .routing]
      (finishRow state apiKey used capability streamed usage) := by
  refine .bind orPanic_only fun cost => ask (by simp [GatewayOp.kind]) fun _ =>
    ask (by simp [GatewayOp.kind]) fun _ => ?_
  split_ifs
  · exact trivial
  · exact ask (by simp [GatewayOp.kind]) fun _ => askOnly (by simp [GatewayOp.kind])

theorem recordUsage {model : String} {usage : Option UsageReport} (hkinds : .metrics ∈ kinds) :
    Performs kinds (recordUsage model usage : App ε Unit) := by
  unfold Godwit.recordUsage
  cases usage.bind UsageReport.promptTokens <;> cases usage.bind UsageReport.completionTokens
  · exact trivial
  · exact recordMetrics hkinds
  · exact .bind (recordMetrics hkinds) fun _ => trivial
  · exact .bind (recordMetrics hkinds) fun _ => recordMetrics hkinds

theorem finishChat {state : AppState} {apiKey : ApiKey} {primary : Model} {model provider : String}
    {streamed : Bool} {tags : List String} {served : ChatServed} :
    Performs [.metrics, .system, .log]
      (finishChat state apiKey primary model provider streamed tags served) := by
  have hlog : ∀ cost, Performs [.metrics, .system, .log]
      (do
        let duration ← Godwit.ask .elapsed
        Godwit.ask (.spawnRequestLog (chatLog apiKey primary served streamed tags cost duration))
        pure served.response : App Fault Response) := fun cost =>
    ask (by simp [GatewayOp.kind]) fun _ => ask (by simp [GatewayOp.kind]) fun _ => trivial
  refine .bind (recordMetrics (by simp)) fun _ => ask (by simp [GatewayOp.kind]) fun _ =>
    .bind (recordMetrics (by simp)) fun _ => .bind (recordUsage (by simp)) fun _ => ?_
  dsimp only
  cases served.usage with
  | none => exact hlog none
  | some usage => exact .bind orPanic_only hlog

/-! ## Calls -/

variable {state : AppState} {resolved : ResolvedModel} {req : ChatCompletionRequest}

theorem serveFallback {model provider : String} :
    Performs [.routing, .provider, .system, .metrics] (serveFallback state model provider req) :=
  serveFallback_only (fun o ho => by simp [ho]) (fun o ho => by simp [kind_of_chatMessages ho])
    (fun modelRef => by simp [GatewayOp.kind]) fun o ho => by simp [ho]

/-! ## Tools -/

theorem mergeAgenticTools : Performs [.tools] (mergeAgenticTools state req : App ε _) := by
  refine ask (by simp [GatewayOp.kind]) fun tools => ?_
  dsimp only
  split_ifs <;> exact trivial

theorem webSearchResult {toolName : String} {args : Json} :
    Performs [.tools] (webSearchResult state toolName args : App ε _) := by
  unfold Godwit.webSearchResult
  split
  · dsimp only
    -- the text of the query plays no part, and is slow to look into
    generalize trimText _ = query
    split_ifs
    · exact trivial
    · refine ask (by simp [GatewayOp.kind]) fun answer => ?_
      cases answer <;> exact trivial
  · exact trivial

theorem resolveToolCall {call : ToolCall} :
    Performs [.tools] (resolveToolCall state call : App ε _) := by
  unfold Godwit.resolveToolCall
  dsimp only
  split_ifs
  · refine ask (by simp [GatewayOp.kind]) fun answer => ?_
    cases answer <;> exact trivial
  · refine .bind webSearchResult fun text => ?_
    cases text <;> exact trivial
  · exact trivial

theorem resolveToolCalls {calls : List ToolCall} :
    Performs [.tools] (resolveToolCalls state calls : App ε _) := by
  induction calls with
  | nil => exact trivial
  | cons call rest ih => exact .bind resolveToolCall fun _ => .bind ih fun _ => trivial

theorem executeFrom {left iteration : Nat} {messages : List ChatMessage} {totalUsage : UsageReport} :
    Performs [.provider, .system, .tools]
      (executeFrom state resolved req left iteration messages totalUsage) := by
  induction left generalizing iteration messages totalUsage with
  | zero => exact trivial
  | succ left ih =>
      refine .bind (.mapError (runIteration_only (fun o ho => by simp [ho]) (by simp [GatewayOp.kind]))) fun a => ?_
      obtain ⟨completion, usage⟩ := a
      refine .bind orThrow_only fun _ => ?_
      dsimp only
      split
      · exact trivial
      · refine .bind (resolveToolCalls.mono (by simp)) fun results => ?_
        cases results with
        | nil => exact trivial
        | cons result results => exact ih

end Performs

/-- The agentic loop with the guardrails after it. -/
theorem serveAgentic_only {P : GatewayOp → Prop} {state : AppState} {resolved : ResolvedModel}
    {model provider requestId : String} {req : ChatCompletionRequest}
    (hP : ∀ o, o.kind ∈ [OpKind.provider, .system, .tools, .metrics] → P o)
    (hpost : ∀ completion, P (.postCall completion requestId)) :
    (serveAgentic state resolved model provider requestId req).Only P := by
  have hkinds : ∀ {ε α : Type} {kinds : List OpKind} {p : App ε α}, Performs kinds p →
      kinds ⊆ [OpKind.provider, .system, .tools, .metrics] → p.Only P := fun hp hsub =>
    Program.Only.mono hp fun o ho => hP o (hsub ho)
  refine .bind (hkinds Performs.mergeAgenticTools (by simp)) fun merged => ?_
  refine .bind (.attempt (hkinds Performs.executeFrom (by simp))) fun outcome => ?_
  cases outcome with
  | error e => exact hkinds Performs.failChat (by simp)
  | ok result =>
      obtain ⟨completion, totalUsage⟩ := result
      exact .bind (guardCompletion_only (fun o ho => hP o (by simp [ho])) (hpost completion))
        fun guarded => .bind orPanic_only fun _ => trivial

end Godwit
