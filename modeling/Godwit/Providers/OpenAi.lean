import Godwit.Core.ChatWire

set_option autoImplicit false

/-! # Requests to an OpenAI upstream (`godwit-providers/src/openai.rs`)

The adapter writes messages and contents in types of its own, and hands the rest of a request on. -/

namespace Godwit

/-- A field that is left out when there is nothing to write. -/
def writtenField (key : String) (value : Option Json) : List (String × Json) :=
  (value.map fun json => (key, json)).toList

theorem lookupField_writtenField (name key : String) (value : Option Json) :
    lookupField name (writtenField key value).reverse = if key = name then value else none := by
  cases value with
  | none => simp [writtenField, lookupField]
  | some json => by_cases hkey : key = name <;> simp [writtenField, lookupField, hkey]

/-- `OpenAiContentPart`, tagged with its type. -/
def openaiContentPart : ChatContentPart → Json
  | .text text => .obj [("text", .str text), ("type", .str "text")]
  | .imageUrl url detail =>
    .obj [("image_url", .obj (writtenField "detail" (detail.map .str) ++ [("url", .str url)])),
      ("type", .str "image_url")]

/-- The parts of a content item. -/
def openaiContentParts : ChatContent → List Json
  | .text text => [openaiContentPart (.text text)]
  | .parts parts => parts.map openaiContentPart

/-- The derived `Serialize` of `ToolCall`. -/
def encodeToolCall (call : ToolCall) : Json :=
  .obj [("function", .obj [("arguments", .str call.function.arguments), ("name", .str call.function.name)]),
    ("id", .str call.id), ("type", .str call.type)]

/-- `OpenAiMessage::from_chat_message`. -/
def openaiMessage (m : ChatMessage) : Json :=
  .object ([("role", .str m.role),
      ("content", (m.content.map fun items => .arr (items.flatMap openaiContentParts)).getD .null)]
    ++ writtenField "name" (m.name.map .str)
    ++ writtenField "tool_calls" (m.toolCalls.map fun calls => .arr (calls.map encodeToolCall))
    ++ writtenField "tool_call_id" (m.toolCallId.map .str))

/-- `OpenAiResponseFormat`: a schema is strict unless the request says otherwise. -/
def openaiResponseFormat : ResponseFormat → Json
  | .text => .obj [("type", .str "text")]
  | .jsonObject => .obj [("type", .str "json_object")]
  | .jsonSchema schema =>
    .obj [("json_schema", .object ([("name", .str schema.name)] ++ writtenField "schema" schema.schema
        ++ [("strict", .bool (schema.strict.getD true))])),
      ("type", .str "json_schema")]

/-- The derived `Serialize` of `Tool`. -/
def encodeTool (tool : Tool) : Json :=
  .obj [("function", .obj [("description", encodeOption tool.function.description),
      ("name", .str tool.function.name), ("parameters", tool.function.parameters.getD .null)]),
    ("type", .str tool.type)]

/-- The fields of an object. -/
def Json.fields : Json → List (String × Json)
  | .obj fields => fields
  | _ => []

/-- `OpenAiChatRequest`, for the upstream id of the model. -/
def openaiChatRequest (providerModelId : String) (request : ChatCompletionRequest) : Json :=
  .object (request.parameters.fields
    ++ [("model", .str providerModelId), ("messages", .arr (request.messages.map openaiMessage))]
    ++ writtenField "stream" (request.stream.map .bool)
    ++ writtenField "max_tokens" (request.maxTokens.map fun n => .int n.toInt)
    ++ writtenField "tools" (request.tools.map fun tools => .arr (tools.map encodeTool))
    ++ writtenField "response_format" (request.responseFormat.map openaiResponseFormat))

end Godwit
