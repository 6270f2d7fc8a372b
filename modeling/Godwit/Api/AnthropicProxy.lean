import Godwit.Api.Media
import Godwit.Providers.OpenAi

set_option autoImplicit false

/-! # `/v1/messages` (`godwit-api/src/anthropic_proxy.rs`)

The Anthropic endpoint turns its request into a chat request and tries the fallbacks of the resolved
row, in one loop for streams and one for whole responses. Of the admission checks it makes only the
rate limit. -/

namespace Godwit

/-- A message of `/v1/messages`: its content is one text. -/
structure AnthropicMessage where
  role : String
  content : String
  deriving DecidableEq, Repr

/-- A tool of `/v1/messages`. -/
structure AnthropicTool where
  name : String
  description : Option String
  inputSchema : Option Json
  deriving Repr

/-- A request; `parameters` is the part of the chat request made from the sampling parameters, the
    stop sequences and the tool choice. -/
structure AnthropicMessagesRequest where
  model : String
  messages : List AnthropicMessage
  maxTokens : Int32
  stream : Bool
  system : Option String
  tools : Option (List AnthropicTool)
  parameters : Json
  deriving Repr

/-- A message with one text part. -/
def textMessage (role text : String) : ChatMessage :=
  ⟨role, some [.text text], none, none, none, none⟩

/-- `anthropic_message_to_core`. -/
def anthropicMessageToCore (msg : AnthropicMessage) : ChatMessage := textMessage msg.role msg.content

/-- `anthropic_tool_to_core`. -/
def anthropicToolToCore (tool : AnthropicTool) : Tool :=
  ⟨"function", ⟨tool.name, tool.description, tool.inputSchema⟩⟩

/-- `anthropic_request_to_core`: the system text becomes the first message. -/
def anthropicRequestToCore (req : AnthropicMessagesRequest) : ChatCompletionRequest where
  model := req.model
  messages := (req.system.map (textMessage "system")).toList
    ++ req.messages.map anthropicMessageToCore
  stream := some req.stream
  maxTokens := some req.maxTokens
  tools := req.tools.map (List.map anthropicToolToCore)
  responseFormat := none
  parameters := req.parameters

/-- The tool choices that Anthropic knows. -/
inductive AnthropicToolChoice where
  | auto
  | any
  | tool (name : String)
  deriving DecidableEq, Repr

/-- The tool choice of `anthropic_request_to_core`. -/
def anthropicToolChoiceToCore : AnthropicToolChoice → ToolChoice
  | .auto => .auto
  | .any => .required
  | .tool name => .function name

/-- A request with its fields apart; numbers are kept as they are written. -/
structure AnthropicMessagesBody where
  model : String
  messages : List AnthropicMessage
  maxTokens : Int32
  stream : Bool
  system : Option String
  temperature : Option Json
  topP : Option Json
  topK : Option Int32
  stopSequences : Option (List String)
  tools : Option (List AnthropicTool)
  toolChoice : Option AnthropicToolChoice
  deriving Repr

/-- The sampling parameters under their OpenAI names. -/
def AnthropicMessagesBody.parameters (body : AnthropicMessagesBody) : Json :=
  .object (writtenField "temperature" body.temperature
    ++ writtenField "top_p" body.topP
    ++ writtenField "top_k" (body.topK.map fun topK => .int topK.toInt)
    ++ writtenField "stop" (body.stopSequences.map fun texts => .arr (texts.map .str))
    ++ writtenField "tool_choice"
      (body.toolChoice.map fun choice => encodeToolChoice (anthropicToolChoiceToCore choice)))

/-- The body without what the translation gives other names. -/
def AnthropicMessagesBody.request (body : AnthropicMessagesBody) : AnthropicMessagesRequest where
  model := body.model
  messages := body.messages
  maxTokens := body.maxTokens
  stream := body.stream
  system := body.system
  tools := body.tools
  parameters := body.parameters

/-- `core_finish_reason_to_anthropic`: any other reason passes through. -/
def coreFinishReasonToAnthropic : Option String → Option String
  | some "stop" => some "end_turn"
  | some "length" => some "max_tokens"
  | some "tool_calls" => some "tool_use"
  | some "content_filter" => some "end_turn"
  | some other => some other
  | none => none

/-- The tool call of a completion as a content block. -/
def toolUseBlock (json : JsonCodec) (call : ToolCall) : AnthropicContentBlock :=
  .toolUse call.id call.function.name
    ((json.fromStr call.function.arguments).getD
      (.object [("arguments", .str call.function.arguments)]))

/-- The blocks of an answer: the tool calls come before the text. -/
def contentBlocks (json : JsonCodec) (message : ChatMessage) : List AnthropicContentBlock :=
  (message.toolCalls.getD []).map (toolUseBlock json)
    ++ (message.contentAsText.map AnthropicContentBlock.text).toList

/-- `core_response_to_anthropic`: the first choice only. -/
def coreResponseToAnthropic (json : JsonCodec) (response : ChatCompletionResponse) :
    AnthropicMessagesResponse where
  id := response.id
  model := response.model
  content := response.choices.head?.elim [] fun choice => contentBlocks json choice.message
  stopReason := response.choices.head?.bind fun choice =>
    coreFinishReasonToAnthropic choice.finishReason
  inputTokens := response.usage.elim 0 Usage.promptTokens
  outputTokens := response.usage.elim 0 Usage.completionTokens

/-! ## Attempts -/

/-- One call of the chain that is not streamed. -/
def attemptAnthropicChat (state : AppState) (req : ChatCompletionRequest) (resolved : ResolvedModel) :
    App ProviderError AnthropicMessagesResponse := do
  match ← callAdapter resolved (.chat req) with
  | (.chat completion, _) => pure (coreResponseToAnthropic state.pricing.json completion)
  | (_, _) => Program.throw (.provider "unexpected provider response variant")

/-- One call of the chain that is streamed. -/
def attemptAnthropicStream (req : ChatCompletionRequest) (resolved : ResolvedModel) :
    App ProviderError Response := do
  let events ← callAdapterStream resolved req
  let id : String ← ask .newUuid
  pure (.sse events false (.anthropic ("msg_" ++ id) (streamModel resolved.model)))

/-! ## The handler -/

/-- The usage that a whole response is billed by. -/
def anthropicUsage (response : AnthropicMessagesResponse) : UsageReport :=
  { UsageReport.default with
    promptTokens := some response.inputTokens
    completionTokens := some response.outputTokens }

/-- `messages`: the handler of `/v1/messages`. -/
def messages (state : AppState) (apiKey : ApiKey) (req : AnthropicMessagesRequest) :
    App Fault Response := do
  let coreReq := anthropicRequestToCore req
  let resolved ← orThrow (fun e => .api (.fromCore e)) (← ask (.resolve coreReq.model .chat))
  let estimatedTokens := estimateRequestTokens coreReq
  let org ← orThrow (fun e => .api (.core e)) (← ask (.getOrganization apiKey.organizationId))
  (consumeLimit apiKey org resolved.model estimatedTokens).mapError Fault.api
  if req.stream then
    -- the row that answered is dropped: the first one is logged
    let (response, _) ←
      (withFallbacks .chat (fun model => consumeLimit apiKey org model estimatedTokens)
        (attemptAnthropicStream coreReq) resolved).mapError Fault.api
    finishRow state apiKey resolved.model .chat true .default
    pure response
  else
    let (response, used) ←
      (withFallbacks .chat (fun model => consumeLimit apiKey org model estimatedTokens)
        (attemptAnthropicChat state coreReq) resolved).mapError Fault.api
    finishRow state apiKey used .chat false (anthropicUsage response)
    pure (.messages response)

end Godwit
