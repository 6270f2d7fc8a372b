import Godwit.Lib.Text
import Godwit.Providers.ChatStream
import Godwit.Providers.OpenAi

set_option autoImplicit false

/-! # Chat with an Anthropic upstream (`godwit-providers/src/anthropic.rs`)

A chat request in the words of the Messages API, and the message that answers it as a completion. The events of
a streamed message are in `ChatStream`. The types of this module of the source are in a namespace of their own,
since the proxy has types of the same names for its own Messages endpoint. -/

namespace Godwit

/-- The schema that the answer is to have. -/
def ChatCompletionRequest.jsonSchema (request : ChatCompletionRequest) : Option JsonSchema :=
  match request.responseFormat with
  | some (.jsonSchema schema) => some schema
  | _ => none

namespace AnthropicProvider

/-! ## Messages -/

/-- The data of an image. -/
structure AnthropicImageSource where
  type : String
  mediaType : String
  data : String
  deriving DecidableEq, Repr

/-- The marker of a block that is to be cached is its type. -/
inductive AnthropicContentBlock where
  | text (text : String) (cacheControl : Option String)
  | image (source : AnthropicImageSource) (cacheControl : Option String)
  deriving DecidableEq, Repr

/-- A message of the request: its content is a list of blocks. -/
structure AnthropicMessage where
  role : String
  content : List AnthropicContentBlock
  deriving DecidableEq, Repr

/-- The media type that a header names. -/
def imageMediaType (header : String) : String :=
  if containsText header "image/png" then "image/png"
  else if containsText header "image/jpeg" || containsText header "image/jpg" then "image/jpeg"
  else if containsText header "image/gif" then "image/gif"
  else if containsText header "image/webp" then "image/webp"
  else "image/png"

/-- A data URL is taken apart; any other text stands for the data of a PNG. -/
def parseImageUrl (url : String) : String × String :=
  if "data:".toList.isPrefixOf url.toList then
    match url.toList.splitOn ',' with
    | [header, data] => (imageMediaType (String.ofList header), String.ofList data)
    | _ => ("image/png", url)
  else ("image/png", url)

/-- The block of a part; the mark of the message goes to each of its blocks. -/
def anthropicContentPart (cacheControl : Option String) : ChatContentPart → AnthropicContentBlock
  | .text text => .text text cacheControl
  | .imageUrl url _ =>
    let (mediaType, data) := parseImageUrl url
    .image ⟨"base64", mediaType, data⟩ cacheControl

/-- The blocks of a content item. -/
def anthropicContent (cacheControl : Option String) : ChatContent → List AnthropicContentBlock
  | .text text => [.text text cacheControl]
  | .parts parts => parts.map (anthropicContentPart cacheControl)

/-- `AnthropicMessage::from_chat_message`: tool calls and tool results are not looked at. -/
def AnthropicMessage.fromChatMessage (msg : ChatMessage) : AnthropicMessage where
  role := msg.role
  content := (msg.content.map fun contents => contents.flatMap (anthropicContent msg.cacheControl)).getD []

/-! ## Requests -/

/-- The schema of the tool that stands for a response format. -/
structure AnthropicJsonSchema where
  name : String
  schema : Option Json
  deriving Repr

/-- A tool of the request. -/
structure AnthropicTool where
  name : String
  description : Option String
  inputSchema : AnthropicJsonSchema
  deriving Repr

/-- The tool choices of the request. -/
inductive AnthropicToolChoice where
  | auto
  | any
  | tool (name : String)
  deriving DecidableEq, Repr

/-- The body of `/v1/messages` as it is sent. -/
structure AnthropicChatRequest where
  model : String
  maxTokens : Int32
  temperature : Option Json
  system : Option String
  messages : List AnthropicMessage
  stream : Bool
  stopSequences : Option (List String)
  topP : Option Json
  topK : Option Json
  repetitionPenalty : Option Json
  tools : Option (List AnthropicTool)
  toolChoice : Option AnthropicToolChoice
  deriving Repr

/-- `Stop` is one text or several. -/
def stopTexts : Json → Option (List String)
  | .str s => some [s]
  | json => decodeList Json.asStr json

/-- The tool that stands for a schema. -/
def schemaTool (schema : JsonSchema) : AnthropicTool where
  name := schema.name
  description := some "Output must conform to this schema"
  inputSchema := ⟨schema.name, schema.schema⟩

/-- `from_chat_request`: the system messages are joined, and the client's tools are left out. -/
def AnthropicChatRequest.fromChatRequest (request : ChatCompletionRequest) (modelId : String) :
    AnthropicChatRequest :=
  let systemParts := (request.messages.filter (·.role = "system")).filterMap ChatMessage.contentAsText
  let tools := (request.jsonSchema.map schemaTool).toList
  { model := modelId
    maxTokens := request.maxTokens.getD 4096
    temperature := request.parameters.get "temperature"
    system := if systemParts.isEmpty then none else some ("\n\n".intercalate systemParts)
    messages := (request.messages.filter (·.role ≠ "system")).map AnthropicMessage.fromChatMessage
    stream := request.stream = some true
    stopSequences := (request.parameters.get "stop").bind stopTexts
    topP := request.parameters.get "top_p"
    topK := request.parameters.get "top_k"
    repetitionPenalty := request.parameters.get "repetition_penalty"
    tools := if tools.isEmpty then none else some tools
    toolChoice := request.jsonSchema.map fun schema => .tool schema.name }

/-! ## Requests as documents -/

/-- The derived `Serialize` of `AnthropicImageSource`. -/
def AnthropicImageSource.toValue (source : AnthropicImageSource) : Json :=
  .obj [("data", .str source.data), ("media_type", .str source.mediaType), ("type", .str source.type)]

/-- The mark of a block, left out when there is none. -/
def cacheControlField (cacheControl : Option String) : List (String × Json) :=
  writtenField "cache_control" (cacheControl.map fun type => .obj [("type", .str type)])

/-- The derived `Serialize` of `AnthropicContentBlock`, with the tag inside. -/
def AnthropicContentBlock.toValue : AnthropicContentBlock → Json
  | .text s cacheControl => .object ([("type", .str "text"), ("text", .str s)] ++ cacheControlField cacheControl)
  | .image source cacheControl =>
    .object ([("type", .str "image"), ("source", source.toValue)] ++ cacheControlField cacheControl)

/-- The derived `Serialize` of `AnthropicMessage`. -/
def AnthropicMessage.toValue (message : AnthropicMessage) : Json :=
  .obj [("content", .arr (message.content.map AnthropicContentBlock.toValue)), ("role", .str message.role)]

/-- The derived `Serialize` of `AnthropicJsonSchema`. -/
def AnthropicJsonSchema.toValue (schema : AnthropicJsonSchema) : Json :=
  .obj ([("name", .str schema.name)] ++ writtenField "schema" schema.schema)

/-- The derived `Serialize` of `AnthropicTool`. -/
def AnthropicTool.toValue (tool : AnthropicTool) : Json :=
  .obj [("description", encodeOption tool.description), ("input_schema", tool.inputSchema.toValue),
    ("name", .str tool.name)]

/-- The derived `Serialize` of `AnthropicToolChoice`, with the name of the variant around a named tool. -/
def AnthropicToolChoice.toValue : AnthropicToolChoice → Json
  | .auto => .str "auto"
  | .any => .str "any"
  | .tool name => .obj [("tool", .obj [("name", .str name)])]

/-- The derived `Serialize` of `AnthropicChatRequest`: what is absent is left out. -/
def AnthropicChatRequest.toValue (request : AnthropicChatRequest) : Json :=
  .object ([("model", .str request.model), ("max_tokens", .int request.maxTokens.toInt)]
    ++ writtenField "temperature" request.temperature
    ++ writtenField "system" (request.system.map .str)
    ++ [("messages", .arr (request.messages.map AnthropicMessage.toValue)), ("stream", .bool request.stream)]
    ++ writtenField "stop_sequences" (request.stopSequences.map fun texts => .arr (texts.map .str))
    ++ writtenField "top_p" request.topP
    ++ writtenField "top_k" request.topK
    ++ writtenField "repetition_penalty" request.repetitionPenalty
    ++ writtenField "tools" (request.tools.map fun tools => .arr (tools.map AnthropicTool.toValue))
    ++ writtenField "tool_choice" (request.toolChoice.map AnthropicToolChoice.toValue))

/-! ## Responses -/

/-- A block of the answer, of which only the text is read. -/
structure AnthropicResponseContentBlock where
  blockType : String
  text : Option String
  deriving DecidableEq, Repr

/-- The tokens of the answer. -/
structure AnthropicUsage where
  inputTokens : Int32
  outputTokens : Int32
  cacheReadInputTokens : Option Int32
  cacheCreationInputTokens : Option Int32
  deriving DecidableEq, Repr

/-- The answer of `/v1/messages`. -/
structure AnthropicMessageResponse where
  id : String
  messageType : String
  role : String
  model : String
  content : List AnthropicResponseContentBlock
  stopReason : Option String
  usage : AnthropicUsage
  deriving DecidableEq, Repr

/-- The derived `Deserialize` of `AnthropicResponseContentBlock`. -/
def decodeAnthropicContentBlock : Decoder AnthropicResponseContentBlock := fun json => do
  let field ← structFields ["type", "text"] json
  let blockType ← requiredField Json.asStr (field "type")
  let text ← optionalDecode Json.asStr (field "text")
  pure ⟨blockType, text⟩

/-- The derived `Deserialize` of `AnthropicUsage`. -/
def decodeAnthropicUsage : Decoder AnthropicUsage := fun json => do
  let field ← structFieldsFrom 2
    ["input_tokens", "output_tokens", "cache_read_input_tokens", "cache_creation_input_tokens"] json
  let inputTokens ← requiredField decodeI32 (field "input_tokens")
  let outputTokens ← requiredField decodeI32 (field "output_tokens")
  let cacheReadInputTokens ← optionalDecode decodeI32 (field "cache_read_input_tokens")
  let cacheCreationInputTokens ← optionalDecode decodeI32 (field "cache_creation_input_tokens")
  pure ⟨inputTokens, outputTokens, cacheReadInputTokens, cacheCreationInputTokens⟩

/-- The derived `Deserialize` of `AnthropicMessageResponse`. -/
def decodeAnthropicMessageResponse : Decoder AnthropicMessageResponse := fun json => do
  let field ← structFields ["id", "type", "role", "model", "content", "stop_reason", "usage"] json
  let id ← requiredField Json.asStr (field "id")
  let messageType ← requiredField Json.asStr (field "type")
  let role ← requiredField Json.asStr (field "role")
  let model ← requiredField Json.asStr (field "model")
  let content ← requiredField (decodeList decodeAnthropicContentBlock) (field "content")
  let stopReason ← optionalDecode Json.asStr (field "stop_reason")
  let usage ← requiredField decodeAnthropicUsage (field "usage")
  pure ⟨id, messageType, role, model, content, stopReason, usage⟩

/-- The text of a text block. -/
def AnthropicResponseContentBlock.shownText (block : AnthropicResponseContentBlock) : Option String :=
  if block.blockType = "text" then block.text else none

/-- The completion, made at the second `created`. -/
def anthropicResponseToChatCompletion (created : Int) (response : AnthropicMessageResponse) :
    ChatCompletionResponse where
  id := response.id
  model := response.model
  created := created
  choices := [{
    index := 0
    message :=
      { role := "assistant"
        content := some [.text (String.join (response.content.filterMap AnthropicResponseContentBlock.shownText))]
        name := none
        toolCalls := none
        toolCallId := none
        cacheControl := none }
    finishReason := response.stopReason
    toolCalls := none }]
  usage := some
    { promptTokens := response.usage.inputTokens
      completionTokens := response.usage.outputTokens
      totalTokens := response.usage.inputTokens + response.usage.outputTokens }

/-- What the adapter reports of an answer. -/
def AnthropicMessageResponse.usageReport (response : AnthropicMessageResponse) : UsageReport :=
  { UsageReport.default with
    promptTokens := some response.usage.inputTokens
    completionTokens := some response.usage.outputTokens
    cacheReadTokens := response.usage.cacheReadInputTokens
    cacheWriteTokens := response.usage.cacheCreationInputTokens }

/-- The answer that is read from the body of a response, if it is one. -/
def anthropicAnswer (json : JsonCodec) (created : Int) (body : String) :
    Option (ChatCompletionResponse × UsageReport) :=
  ((json.fromStr body).bind decodeAnthropicMessageResponse).map fun response =>
    (anthropicResponseToChatCompletion created response, response.usageReport)

end AnthropicProvider

end Godwit
