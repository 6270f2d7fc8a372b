import Godwit.Lib.JsonText
import Godwit.Providers.Proofs.AnthropicAnswer

set_option autoImplicit false

/-! # Tools of an Anthropic upstream

What becomes of tools, calls of tools and their results on the way to an Anthropic upstream, and of the blocks with
calls on the way back. The request that is sent has texts and images in its messages and no tool but the one that
stands for a schema; of the answer only the texts are kept. So nothing is kept but what is not there, or what
coincides with these (`toolsKept_iff`). -/

namespace Godwit

open AnthropicProvider

/-! ## What is kept -/

/-- The tool is one of those of an upstream request. -/
def Tool.SentIn (tool : Tool) (upstream : Json) : Prop :=
  ∃ tools, upstream.get "tools" = some (.arr tools) ∧ ∃ entry ∈ tools,
    entry.get "name" = some (.str tool.function.name)
      ∧ (entry.get "description").bind Json.asStr = tool.function.description
      ∧ ∀ parameters ∈ tool.function.parameters, entry.get "input_schema" = some parameters

/-- The blocks of a message. -/
def Json.contentBlocks (message : Json) : List Json := ((message.get "content").bind Json.asArray).getD []

/-- The blocks of all messages of a request. -/
def Json.messageBlocks (upstream : Json) : List Json :=
  (((upstream.get "messages").bind Json.asArray).getD []).flatMap Json.contentBlocks

/-- A block of the request has the call. -/
def ToolCall.SentIn (call : ToolCall) (upstream : Json) : Prop :=
  ∃ block ∈ upstream.messageBlocks, block.eventType = some "tool_use"
    ∧ block.get "id" = some (.str call.id) ∧ block.get "name" = some (.str call.function.name)

/-- There is the result of a call. -/
def ResultSentIn (toolCallId : String) (upstream : Json) : Prop :=
  ∃ block ∈ upstream.messageBlocks, block.eventType = some "tool_result"
    ∧ block.get "tool_use_id" = some (.str toolCallId)

/-- An upstream request has everything about tools that a request has. -/
structure ToolsSent (request : ChatCompletionRequest) (upstream : Json) : Prop where
  tools : ∀ tool ∈ request.tools.getD [], tool.SentIn upstream
  calls : ∀ message ∈ request.messages, message.role = "assistant" →
    ∀ call ∈ message.toolCalls.getD [], call.SentIn upstream
  results : ∀ message ∈ request.messages, ∀ toolCallId ∈ message.toolCallId, ResultSentIn toolCallId upstream

/-- The blocks with calls of tools in the message of an upstream. -/
def Json.toolUses (message : Json) : List Json :=
  message.contentBlocks.filter fun block => block.eventType = some "tool_use"

/-- The calls of tools of a completion. -/
def ChatCompletionResponse.calls (completion : ChatCompletionResponse) : List ToolCall :=
  completion.choices.flatMap fun choice => choice.message.toolCalls.getD [] ++ choice.toolCalls.getD []

section Codec

variable (json : JsonCodec)

/-- The block is one of the calls. -/
def CallAnswered (completion : ChatCompletionResponse) (block : Json) : Prop :=
  ∃ call ∈ completion.calls, block.get "id" = some (.str call.id)
    ∧ block.get "name" = some (.str call.function.name) ∧ json.fromStr call.function.arguments = block.get "input"

/-- The block is the call of the tool that stands for the schema of the request, with this text as its input. -/
def SpellsInput (request : ChatCompletionRequest) (text : String) (block : Json) : Prop :=
  ∃ schema input, request.jsonSchema = some schema ∧ block.get "name" = some (.str schema.name)
    ∧ block.get "input" = some input ∧ json.fromStr text = some input

/-- Every call in the message of an upstream is one of the completion, or its content. -/
def CallsAnswered (request : ChatCompletionRequest) (message : Json) (completion : ChatCompletionResponse) : Prop :=
  ∀ block ∈ message.toolUses, CallAnswered json completion block
    ∨ SpellsInput json request completion.answer.text block

end Codec

/-! ## When it is kept -/

/-- The tool is the one that stands for the schema. -/
def Tool.IsSchemaTool (tool : Tool) (schema : JsonSchema) : Prop :=
  tool.function.name = schema.name ∧ tool.function.description = (schemaTool schema).description
    ∧ ∀ parameters ∈ tool.function.parameters, parameters = (schemaTool schema).inputSchema.toValue

/-- There is nothing to be lost. -/
structure NoTools (request : ChatCompletionRequest) : Prop where
  tools : ∀ tool ∈ request.tools.getD [], ∃ schema, request.jsonSchema = some schema ∧ tool.IsSchemaTool schema
  calls : ∀ message ∈ request.messages, message.role = "assistant" → message.toolCalls.getD [] = []
  results : ∀ message ∈ request.messages, message.toolCallId = none

/-- The texts of a message. -/
def AnthropicProvider.AnthropicMessageResponse.wholeText (response : AnthropicMessageResponse) : String :=
  String.join (response.content.filterMap AnthropicResponseContentBlock.shownText)

/-! ## The request that is sent -/

namespace AnthropicProvider

theorem AnthropicChatRequest.get_tools (request : AnthropicChatRequest) :
    request.toValue.get "tools" = request.tools.map fun tools => .arr (tools.map AnthropicTool.toValue) := by
  simp [toValue, Json.object, Json.get, lookupField_objectFields, lookupField_append, lookupField,
    lookupField_writtenField]

theorem AnthropicChatRequest.get_messages (request : AnthropicChatRequest) :
    request.toValue.get "messages" = some (.arr (request.messages.map AnthropicMessage.toValue)) := by
  simp [toValue, Json.object, Json.get, lookupField_objectFields, lookupField_append, lookupField,
    lookupField_writtenField]

theorem AnthropicMessage.contentBlocks_toValue (message : AnthropicMessage) :
    message.toValue.contentBlocks = message.content.map AnthropicContentBlock.toValue := by
  simp [toValue, Json.contentBlocks, Json.get, lookupField, Json.asArray]

/-- A block is a text or an image. -/
theorem AnthropicContentBlock.eventType_toValue (block : AnthropicContentBlock) :
    block.toValue.eventType = some "text" ∨ block.toValue.eventType = some "image" := by
  cases block with
  | text s cacheControl =>
      left
      simp [toValue, cacheControlField, Json.eventType, Json.object, Json.get, lookupField_objectFields,
        lookupField_append, lookupField, lookupField_writtenField, Json.asStr]
  | image source cacheControl =>
      right
      simp [toValue, cacheControlField, Json.eventType, Json.object, Json.get, lookupField_objectFields,
        lookupField_append, lookupField, lookupField_writtenField, Json.asStr]

theorem AnthropicChatRequest.eventType_messageBlocks (request : AnthropicChatRequest) {block : Json}
    (hblock : block ∈ request.toValue.messageBlocks) :
    block.eventType = some "text" ∨ block.eventType = some "image" := by
  rw [Json.messageBlocks, get_messages, Option.bind_some, Json.asArray, Option.getD_some] at hblock
  obtain ⟨message, hmessage, hblock⟩ := List.mem_flatMap.1 hblock
  obtain ⟨m, -, rfl⟩ := List.mem_map.1 hmessage
  rw [AnthropicMessage.contentBlocks_toValue] at hblock
  obtain ⟨b, -, rfl⟩ := List.mem_map.1 hblock
  exact b.eventType_toValue

theorem AnthropicChatRequest.eventType_ne (request : AnthropicChatRequest) {block : Json} {type : String}
    (hblock : block ∈ request.toValue.messageBlocks) (htext : type ≠ "text") (himage : type ≠ "image") :
    block.eventType ≠ some type := by
  intro htype
  rcases request.eventType_messageBlocks hblock with h | h
  · exact htext (Option.some.inj (htype.symm.trans h))
  · exact himage (Option.some.inj (htype.symm.trans h))

theorem AnthropicChatRequest.fromChatRequest_tools (request : ChatCompletionRequest) (modelId : String) :
    (fromChatRequest request modelId).tools = request.jsonSchema.map fun schema => [schemaTool schema] := by
  rw [fromChatRequest]
  cases request.jsonSchema <;> rfl

end AnthropicProvider

section Request

variable (request : ChatCompletionRequest) (modelId : String)

theorem Tool.sentIn_iff (tool : Tool) :
    tool.SentIn (AnthropicChatRequest.fromChatRequest request modelId).toValue
      ↔ ∃ schema, request.jsonSchema = some schema ∧ tool.IsSchemaTool schema := by
  rw [SentIn, AnthropicChatRequest.get_tools, AnthropicChatRequest.fromChatRequest_tools]
  constructor
  · rintro ⟨tools, htools, entry, hentry, hname, hdescription, hparameters⟩
    cases hschema : request.jsonSchema with
    | none =>
        rw [hschema] at htools
        cases htools
    | some schema =>
        -- the tool of the schema is the only entry that is ever sent
        rw [hschema] at htools
        obtain rfl := Json.arr.inj (Option.some.inj htools)
        obtain rfl := List.mem_singleton.1 hentry
        refine ⟨schema, rfl, ?_, hdescription.symm, ?_⟩
        · exact (Json.str.inj (Option.some.inj hname)).symm
        · intro parameters hmem
          exact (Option.some.inj (hparameters parameters hmem)).symm
  · rintro ⟨schema, hschema, hname, hdescription, hparameters⟩
    rw [hschema]
    refine ⟨_, rfl, (schemaTool schema).toValue, List.mem_singleton_self _, ?_, hdescription.symm, ?_⟩
    · rw [hname]
      rfl
    · intro parameters hmem
      rw [hparameters parameters hmem]
      rfl

theorem ToolCall.not_sentIn (call : ToolCall) :
    ¬ call.SentIn (AnthropicChatRequest.fromChatRequest request modelId).toValue := by
  rintro ⟨block, hblock, htype, -⟩
  exact AnthropicChatRequest.eventType_ne _ hblock (by decide) (by decide) htype

theorem not_resultSentIn (toolCallId : String) :
    ¬ ResultSentIn toolCallId (AnthropicChatRequest.fromChatRequest request modelId).toValue := by
  rintro ⟨block, hblock, htype, -⟩
  exact AnthropicChatRequest.eventType_ne _ hblock (by decide) (by decide) htype

theorem toolsSent_iff_noTools :
    ToolsSent request (AnthropicChatRequest.fromChatRequest request modelId).toValue ↔ NoTools request := by
  constructor
  · intro hsent
    refine ⟨fun tool htool => (tool.sentIn_iff request modelId).1 (hsent.tools tool htool), ?_, ?_⟩
    · intro message hmessage hrole
      refine List.eq_nil_iff_forall_not_mem.2 fun call hcall => ?_
      exact call.not_sentIn request modelId (hsent.calls message hmessage hrole call hcall)
    · intro message hmessage
      refine Option.eq_none_iff_forall_not_mem.2 fun toolCallId hid => ?_
      exact not_resultSentIn request modelId toolCallId (hsent.results message hmessage toolCallId hid)
  · intro hplain
    refine ⟨fun tool htool => (tool.sentIn_iff request modelId).2 (hplain.tools tool htool), ?_, ?_⟩
    · intro message hmessage hrole call hcall
      rw [hplain.calls message hmessage hrole] at hcall
      exact absurd hcall List.not_mem_nil
    · intro message hmessage toolCallId hid
      rw [hplain.results message hmessage] at hid
      cases hid

end Request

/-! ## The answer that comes back -/

section Answer

variable (json : JsonCodec) (created : Int)

theorem callsAnswered_iff_spelled (request : ChatCompletionRequest) (message : Json)
    (response : AnthropicMessageResponse) :
    CallsAnswered json request message (anthropicResponseToChatCompletion created response)
      ↔ ∀ block ∈ message.toolUses, SpellsInput json request response.wholeText block := by
  -- the completion has the text of the answer and no calls
  have hcalls : (anthropicResponseToChatCompletion created response).calls = [] := rfl
  have htext : (anthropicResponseToChatCompletion created response).answer.text = response.wholeText := by
    simp [ChatCompletionResponse.answer, anthropicResponseToChatCompletion, ChatContent.asText,
      AnthropicMessageResponse.wholeText, String.join_cons]
  have hnone : ∀ block, ¬ CallAnswered json (anthropicResponseToChatCompletion created response) block := by
    rintro block ⟨call, hcall, -⟩
    rw [hcalls] at hcall
    exact absurd hcall List.not_mem_nil
  refine forall₂_congr fun block _ => ?_
  rw [htext, or_iff_right (hnone block)]

/-- Whatever is asked and answered: a request is kept when it has nothing about tools, and the calls of an answer
when its text spells the input of the tool that stands for the schema. -/
theorem toolsKept_iff (request : ChatCompletionRequest) (modelId : String) {body : String} {message : Json}
    {response : AnthropicMessageResponse} (hbody : json.fromStr body = some message)
    (hmessage : decodeAnthropicMessageResponse message = some response) :
    (ToolsSent request (AnthropicChatRequest.fromChatRequest request modelId).toValue ↔ NoTools request)
      ∧ ∃ completion report, anthropicAnswer json created body = some (completion, report)
        ∧ (CallsAnswered json request message completion
          ↔ ∀ block ∈ message.toolUses, SpellsInput json request response.wholeText block) := by
  refine ⟨toolsSent_iff_noTools request modelId, _, response.usageReport, ?_,
    callsAnswered_iff_spelled json created request message response⟩
  rw [anthropicAnswer, hbody, Option.bind_some, hmessage, Option.map_some]

end Answer

/-! ## A forecast in the form of a schema -/

/-- A call of a tool and its result, and an answer that is to have a schema. -/
def forecastRequest : ChatCompletionRequest where
  model := "claude-sonnet"
  messages := [⟨"assistant", none, none, some [⟨"call_1", "function", ⟨"lookup", "{}"⟩⟩], none, none⟩,
    ⟨"tool", some [.text "sunny"], none, none, some "call_1", none⟩]
  stream := none
  maxTokens := none
  tools := some [⟨"function", "lookup", none, none⟩]
  responseFormat := some (.jsonSchema ⟨"forecast", none, none⟩)
  parameters := .obj []

/-- The answer calls the tool that it is made to call. -/
def forecastMessage : Json :=
  .object [("id", .str "msg_01"), ("type", .str "message"), ("role", .str "assistant"),
    ("model", .str "claude-3-5-sonnet-20241022"),
    ("content", .arr [.object [("type", .str "tool_use"), ("id", .str "toolu_01"), ("name", .str "forecast"),
      ("input", .object [("weather", .str "sunny")])]]),
    ("stop_reason", .str "tool_use"),
    ("usage", .object [("input_tokens", .int 10), ("output_tokens", .int 5)])]

/-- An answer that calls a tool. -/
def forecastResponse : AnthropicMessageResponse where
  id := "msg_01"
  messageType := "message"
  role := "assistant"
  model := "claude-3-5-sonnet-20241022"
  content := [⟨"tool_use", none⟩]
  stopReason := some "tool_use"
  usage := ⟨10, 5, none, none⟩

theorem forecastMessage_read :
    jsonText.fromStr (jsonText.toString forecastMessage) = some forecastMessage :=
  jsonText.fromStr_toString _ (by decide)

theorem toolsKept_iff_forecast :
    (ToolsSent forecastRequest (AnthropicChatRequest.fromChatRequest forecastRequest "claude").toValue
        ↔ NoTools forecastRequest)
      ∧ ∃ completion report, anthropicAnswer jsonText 0 (jsonText.toString forecastMessage)
        = some (completion, report)
        ∧ (CallsAnswered jsonText forecastRequest forecastMessage completion
          ↔ ∀ block ∈ forecastMessage.toolUses,
            SpellsInput jsonText forecastRequest forecastResponse.wholeText block) :=
  toolsKept_iff jsonText 0 forecastRequest "claude" forecastMessage_read rfl

/-- The tool, its call and its result are not sent, and the forecast is not in the completion. -/
theorem forecast_toolsLost :
    ¬ ToolsSent forecastRequest (AnthropicChatRequest.fromChatRequest forecastRequest "claude").toValue
      ∧ ∃ completion report, anthropicAnswer jsonText 0 (jsonText.toString forecastMessage)
        = some (completion, report)
        ∧ ¬ CallsAnswered jsonText forecastRequest forecastMessage completion := by
  constructor
  · intro hsent
    have hplain := (toolsSent_iff_noTools forecastRequest "claude").1 hsent
    have hnone := hplain.results _ (List.mem_cons_of_mem _ List.mem_cons_self)
    cases hnone
  · refine ⟨anthropicResponseToChatCompletion 0 forecastResponse, forecastResponse.usageReport, ?_, ?_⟩
    · rw [anthropicAnswer, forecastMessage_read]
      rfl
    · intro hanswered
      have hspelled := (callsAnswered_iff_spelled jsonText 0 forecastRequest forecastMessage forecastResponse).1
        hanswered
      obtain ⟨schema, input, -, -, -, hinput⟩ := hspelled _ List.mem_cons_self
      cases hinput

end Godwit
