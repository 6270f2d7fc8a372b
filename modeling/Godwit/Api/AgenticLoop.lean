import Godwit.Api.Resilience

set_option autoImplicit false

/-! # Tools, response validation and the agentic loop (`agentic_loop.rs`, `response_validation.rs`, `proxy.rs`)

A request with tools is answered in rounds: as long as a completion calls tools, their results are
added to the conversation and the model is asked again. -/ 

namespace Godwit

/-! ## Validation -/

/-- Why an answer does not fit the requested format. -/
inductive ValidationError where
  | invalidJson (msg : String)
  | schemaViolation (msg : String)
  | noContent
  deriving DecidableEq, Repr

/-- Its `Display` text. -/
def ValidationError.toText : ValidationError → String
  | .invalidJson msg => "invalid json: " ++ msg
  | .schemaViolation msg => "schema validation failed: " ++ msg
  | .noContent => "no content to validate"

/-- `validate_response`: the content is parsed, then checked against the schema. -/
def validateResponse (state : AppState) (content : String) (jsonSchema : JsonSchema) :
    Except ValidationError Unit :=
  match jsonSchema.schema with
  | none => .error (.schemaViolation "schema is required")
  | some schema =>
    match state.pricing.json.fromStr content with
    | none =>
      .error (.invalidJson ("failed to parse response as json: " ++ state.schema.parseError content))
    | some parsed =>
      match state.schema.compile schema with
      | .error e => .error (.schemaViolation ("invalid schema definition: " ++ e))
      | .ok validate =>
        match validate parsed with
        | [] => .ok ()
        | errors =>
          .error (.schemaViolation
            ("response does not match schema: " ++ "; ".intercalate errors))

/-- The check of a completion against the format of its request, as the text of the error. -/
def validateCompletion (state : AppState) (format : Option ResponseFormat)
    (completion : ChatCompletionResponse) : Except String Unit :=
  match format, completion.choices.head?.bind fun c => c.message.contentAsText with
  | some (.jsonSchema jsonSchema), some content =>
    match validateResponse state content jsonSchema with
    | .ok () => .ok ()
    | .error e => .error ("response validation failed: " ++ e.toText)
  | _, _ => .ok ()

/-! ## Tools of a request -/

/-- The loop of `merge_agentic_tools`: the tools to add, given the names there are. -/
def newTools : List String → List Tool → List Tool
  | _, [] => []
  | existing, tool :: rest =>
    if isNativeWebSearchTool tool || existing.contains tool.function.name then
      newTools existing rest
    else tool :: newTools (tool.function.name :: existing) rest

/-- `merge_agentic_tools`: the tools of the servers and the search, unless the client named them. -/
def mergeAgenticTools {ε : Type} (state : AppState) (req : ChatCompletionRequest) :
    App ε ChatCompletionRequest := do
  let existing := (req.tools.getD []).map fun t => t.function.name
  let mcp := newTools existing (← ask .mcpTools)
  let existing := mcp.map (fun t => t.function.name) ++ existing
  let added := mcp ++
    (if state.searxng && !existing.contains "web_search" then [webSearchTool] else [])
  if added.isEmpty then pure req
  else pure { req with tools := some (req.tools.getD [] ++ added) }

/-! ## Tool calls of a completion -/

/-- One result of the search as the model reads it. -/
def searchLine (i : Nat) (r : SearxngResult) : String :=
  toString (i + 1) ++ ". " ++ r.title ++ " — " ++ r.url ++ "\n   " ++ r.content.getD ""

/-- `web_search_result`; `none` when no backend is configured. -/
def webSearchResult {ε : Type} (state : AppState) (toolName : String) (args : Json) :
    App ε (Option String) :=
  match state.searxng, state.searxngProfile with
  | true, some profile =>
    let field := (args.get "query").or (args.get "search_query")
    let query := trimText ((field.bind Json.asStr).getD "")
    if query.isEmpty then
      pure (some "web search tool denied: no 'query' argument was supplied by the model")
    else do
      match ← ask (.searxngSearch profile query) with
      | .ok results =>
        let title := "web search (" ++ toolName ++ ") results for: " ++ query
        pure (some ("\n".intercalate (title :: results.mapIdx searchLine)))
      | .error e => pure (some ("web search via SearXNG failed: " ++ e.toText))
  | _, _ => pure none

/-- The text that answers one tool call. -/
def resolveToolCall {ε : Type} (state : AppState) (call : ToolCall) : App ε String := do
  let name := call.function.name
  let args := (state.pricing.json.fromStr call.function.arguments).getD (.obj [])
  if containsText name "__" then
    match ← ask (.mcpCall name args) with
    | .ok text => pure text
    | .error e => pure ("MCP tool call to '" ++ name ++ "' failed: " ++ e)
  else if nativeWebSearchTools.contains name then
    match ← webSearchResult state name args with
    | some text => pure text
    | none =>
      pure ("web search tool '" ++ name ++ "' was requested but no SearXNG backend is configured")
  else pure ("tool '" ++ name ++ "' is not provisioned by the gateway")

/-- The message that carries the result of a tool call. -/
def toolMessage (id result : String) : ChatMessage :=
  ⟨"tool", some [.text result], none, none, some id, none⟩

/-- `resolve_tool_calls`: one `tool` message for each call, in order. -/
def resolveToolCalls {ε : Type} (state : AppState) : List ToolCall → App ε (List ChatMessage)
  | [] => pure []
  | call :: rest => do
    let result ← resolveToolCall state call
    let messages ← resolveToolCalls state rest
    pure (toolMessage call.id result :: messages)

/-! ## The agentic loop -/

/-- Why a round of the loop failed. -/
inductive RoundError where
  | elapsed
  | provider (e : ProviderError)
  deriving DecidableEq, Repr

/-- The part of an operation inside the timeout of a round. -/
def orElapsed {α : Type} : Option α → App RoundError α
  | some a => pure a
  | none => Program.throw .elapsed

/-- `run_iteration`, inside the timeout of its round. -/
def runIteration (resolved : ResolvedModel) (req : ChatCompletionRequest) :
    App RoundError (ChatCompletionResponse × UsageReport) := do
  let answer ← withRetry .default
    (fun ms => do orElapsed (← ask (.timedSleep ms)))
    (do orElapsed (← ask (.timedAdapter resolved (.chat req))))
  match answer with
  | .error e => Program.throw (.provider e)
  | .ok (.chat completion, usage) => pure (completion, usage)
  | .ok (_, _) =>
    Program.throw
      (.provider (.provider "unexpected provider response variant during agentic chat"))

/-- The sum of two counts, as 32-bit integers that wrap. -/
def addCounts : Option Int32 → Option Int32 → Option Int32
  | some x, some y => some (x + y)
  | a, none => a
  | none, b => b

/-- `accumulate_usage`: the tokens of the rounds are added. -/
def accumulateUsage (acc report : UsageReport) : UsageReport :=
  { acc with
    promptTokens := addCounts acc.promptTokens report.promptTokens
    completionTokens := addCounts acc.completionTokens report.completionTokens }

/-- `Duration::from_secs`, as `Debug` prints it. -/
def debugSecs (secs : Nat) : String := if secs = 0 then "0ns" else toString secs ++ "s"

/-- What a round that fails makes of the request. -/
def RoundError.toApi (state : AppState) (iteration : Nat) : RoundError → ApiError
  | .elapsed => .core (.provider ("iteration " ++ toString (iteration + 1) ++ " timed out after "
      ++ debugSecs state.iterationTimeoutSecs))
  | .provider e => .core (.provider e.toText)

/-- `AgenticLoop::execute` from `iteration` on, with `left` rounds to go. -/
def executeFrom (state : AppState) (resolved : ResolvedModel) (req : ChatCompletionRequest) :
    (left iteration : Nat) → List ChatMessage → UsageReport →
      App ApiError (ChatCompletionResponse × UsageReport)
  | 0, _, _, _ =>
    Program.throw (.core (.provider ("agentic tool loop exceeded " ++ toString state.maxIterations
      ++ " iterations without converging")))
  | left + 1, iteration, messages, totalUsage => do
    let (completion, roundUsage) ← (runIteration resolved { req with messages := messages }).mapError
      (RoundError.toApi state iteration)
    let totalUsage := accumulateUsage totalUsage roundUsage
    orThrow (fun msg => .core (.provider msg))
      (validateCompletion state req.responseFormat completion)
    match completion.choices.flatMap fun c => c.message.toolCalls.getD [] with
    | [] => pure (completion, totalUsage)
    | toolCalls =>
      let messages := messages ++ (completion.choices.head?.map (·.message)).toList
      match ← resolveToolCalls state toolCalls with
      | [] => pure (completion, totalUsage)
      | results => executeFrom state resolved req left (iteration + 1) (messages ++ results) totalUsage

/-- `AgenticLoop::execute`: rounds until an answer asks for no tool. -/
def agenticExecute (state : AppState) (resolved : ResolvedModel) (req : ChatCompletionRequest) :
    App ApiError (ChatCompletionResponse × UsageReport) :=
  executeFrom state resolved req state.maxIterations 0 req.messages .default

end Godwit
