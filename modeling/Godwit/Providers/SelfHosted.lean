import Godwit.Providers.OpenAiCache

set_option autoImplicit false

/-! # Requests to self-hosted backends (`vllm.rs`, `sglang.rs`, `ollama.rs`, `llama_cpp.rs`)

The four adapters send a request in the format in which the gateway reads it, for the upstream id of the model
and without native web search tools. A response format with a schema gives way to the field in which the
backend takes one. -/

namespace Godwit

/-- `strip_native_web_search_from_request`. -/
def stripNativeWebSearch (request : ChatCompletionRequest) : ChatCompletionRequest :=
  match request.tools with
  | some tools =>
    if tools.any isNativeWebSearchTool then
      { request with tools := some (tools.filter fun tool => !isNativeWebSearchTool tool) }
    else request
  | none => request

/-! ## The derived `Serialize` of a request -/

/-- The value of a field; one that is not set is `null`. -/
def ChatCompletionRequest.encodedField (request : ChatCompletionRequest) (name : String) : Json :=
  if name = "model" then .str request.model
  else if name = "messages" then encodeMessages request.messages
  else if name = "stream" then (request.stream.map Json.bool).getD .null
  else if name = "max_tokens" then (request.maxTokens.map fun n => Json.int n.toInt).getD .null
  else if name = "tools" then (request.tools.map fun tools => Json.arr (tools.map encodeTool)).getD .null
  else if name = "response_format" then (request.responseFormat.map encodeResponseFormat).getD .null
  else (lookupField name request.parameters.fields).getD .null

/-- The derived `Serialize` of the request. -/
def encodeRequest (request : ChatCompletionRequest) : Json :=
  .object (requestFields.map fun name => (name, request.encodedField name))

/-! ## Bodies -/

/-- The fields without a key. -/
def removeField (key : String) (fields : List (String × Json)) : List (String × Json) :=
  fields.filter fun f => f.1 ≠ key

/-- Set the field to the parameter, when the request has it. -/
def handOn (key : String) (request : ChatCompletionRequest) (fields : List (String × Json)) :
    List (String × Json) :=
  match lookupField key request.parameters.fields with
  | some value => setField key value fields
  | none => fields

/-- The response format, when it has a schema, gives way to the field of the backend. -/
def replaceSchema (schemaField : JsonSchema → Option (String × Json)) (request : ChatCompletionRequest)
    (fields : List (String × Json)) : List (String × Json) :=
  match request.responseFormat with
  | some (.jsonSchema schema) =>
    match schemaField schema with
    | some (name, value) => setField name value (removeField "response_format" fields)
    | none => removeField "response_format" fields
  | _ => fields

/-- The request as an adapter has changed it, in `chat_stream` when `streaming`. -/
def preparedRequest (streaming : Bool) (providerModelId : String) (request : ChatCompletionRequest) :
    ChatCompletionRequest :=
  let request := if streaming then { request with stream := some true } else request
  stripNativeWebSearch { request with model := providerModelId }

/-- What `chat` and `chat_stream` send. -/
def selfHostedBody (schemaField : JsonSchema → Option (String × Json)) (takesSeed streaming : Bool)
    (providerModelId : String) (request : ChatCompletionRequest) : Json :=
  let request := preparedRequest streaming providerModelId request
  let fields := replaceSchema schemaField request (encodeRequest request).fields
  let fields := handOn "stop" request fields
  .obj (if takesSeed then handOn "seed" request fields else fields)

/-! ## The four backends -/

/-- The four adapters of servers that speak the format of OpenAI. -/
inductive SelfHosted where
  | vllm
  | sglang
  | ollama
  | llamaCpp
  deriving DecidableEq, Repr

/-- How vLLM is given a schema. -/
def vllmSchemaField (schema : JsonSchema) : Option (String × Json) :=
  schema.schema.map fun doc => ("guided_json", doc)

/-- The body that is sent to vLLM. -/
def vllmBody : Bool → String → ChatCompletionRequest → Json := selfHostedBody vllmSchemaField true

/-- How SGLang is given a schema. -/
def sglangSchemaField (schema : JsonSchema) : Option (String × Json) :=
  schema.schema.map fun doc => ("json_schema", doc)

/-- The body that is sent to SGLang. -/
def sglangBody : Bool → String → ChatCompletionRequest → Json := selfHostedBody sglangSchemaField true

/-- Ollama is only told to answer with JSON. -/
def ollamaSchemaField (_ : JsonSchema) : Option (String × Json) := some ("format", .str "json")

/-- The body that is sent to Ollama. -/
def ollamaBody : Bool → String → ChatCompletionRequest → Json := selfHostedBody ollamaSchemaField true

/-- The right side of the rule for a property. -/
def gbnfType (propType : String) : String :=
  if propType = "string" then "\"\\\"\" string \"\\\"\""
  else if propType = "number" then "number"
  else if propType = "integer" then "integer"
  else if propType = "boolean" then "boolean"
  else if propType = "array" then "array"
  else if propType = "object" then "object"
  else "string"

/-- The rule of a property. -/
def gbnfRule : String × Json → String
  | (key, .obj fields) =>
    key ++ " ::= " ++ gbnfType (((lookupField "type" fields).bind Json.asStr).getD "string") ++ "\n"
  | _ => ""

/-- `json_schema_to_gbnf`: the rules of the properties among fixed ones. -/
def jsonSchemaToGbnf (schema : Json) : String :=
  "root ::= object\n"
    ++ (match schema.get "properties" with
      | some (.obj properties) => String.join (properties.map gbnfRule)
      | _ => "")
    ++ "object ::= \"\x7b\" (ws string ws \":\" ws value (ws \",\" ws string ws \":\" ws value)*)? ws \"\x7d\"\n"
    ++ "array ::= \"[\" (ws value (ws \",\" ws value)*)? ws \"]\"\n"
    ++ "value ::= string | number | integer | boolean | object | array | null\n"
    ++ "string ::= \"\\\"\" ([^\"\\\\] | \"\\\\\" [\"\\\\/bfnrt] | \"\\\\\" u [0-9a-fA-F] [0-9a-fA-F] [0-9a-fA-F] [0-9a-fA-F])* \"\\\"\"\n"
    ++ "number ::= \"-\"? ([0-9] | [1-9] [0-9]*) (\".\" [0-9]+)? ([eE] [+-]? [0-9]+)?\n"
    ++ "integer ::= \"-\"? ([0-9] | [1-9] [0-9]*)\n"
    ++ "boolean ::= \"true\" | \"false\"\n"
    ++ "null ::= \"null\"\n"
    ++ "ws ::= ([ \\t\\n\\r])*\n"

/-- llama.cpp is given a grammar. -/
def llamaCppSchemaField (schema : JsonSchema) : Option (String × Json) :=
  schema.schema.map fun doc => ("grammar", .str (jsonSchemaToGbnf doc))

/-- The seed is written with the other fields only. -/
def llamaCppBody : Bool → String → ChatCompletionRequest → Json := selfHostedBody llamaCppSchemaField false

/-- The field of each adapter. -/
def SelfHosted.schemaField : SelfHosted → JsonSchema → Option (String × Json)
  | .vllm => vllmSchemaField
  | .sglang => sglangSchemaField
  | .ollama => ollamaSchemaField
  | .llamaCpp => llamaCppSchemaField

/-- The body of each adapter. -/
def SelfHosted.body : SelfHosted → Bool → String → ChatCompletionRequest → Json
  | .vllm => vllmBody
  | .sglang => sglangBody
  | .ollama => ollamaBody
  | .llamaCpp => llamaCppBody

end Godwit
