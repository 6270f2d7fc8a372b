import Godwit.Lib.Json

set_option autoImplicit false

/-! # Chat requests and completions (`godwit-core/src/lib.rs`)

The request and response types of chat. Fields that the gateway only hands on to a provider are kept
together as one document. -/

namespace Godwit

/-- A part of a message: a text or an image. -/
inductive ChatContentPart where
  | text (text : String)
  | imageUrl (url : String) (detail : Option String)
  deriving DecidableEq, Repr

/-- A content item: a text or a list of parts. -/
inductive ChatContent where
  | text (text : String)
  | parts (parts : List ChatContentPart)
  deriving DecidableEq, Repr

/-- The text of a text part. -/
def ChatContentPart.asText : ChatContentPart → Option String
  | .text t => some t
  | .imageUrl _ _ => none

/-- The text of a content item; `none` when it has parts but no text part. -/
def ChatContent.asText : ChatContent → Option String
  | .text t => some t
  | .parts items =>
    match items.filterMap ChatContentPart.asText with
    | [] => none
    | texts => some (String.join texts)

/-- The function that is called, with its arguments as JSON text. -/
structure FunctionCall where
  name : String
  arguments : String
  deriving DecidableEq, Repr

/-- A tool call of the model. -/
structure ToolCall where
  id : String
  type : String
  function : FunctionCall
  deriving DecidableEq, Repr

/-- A message of a conversation. -/
structure ChatMessage where
  role : String
  content : Option (List ChatContent)
  name : Option String
  toolCalls : Option (List ToolCall)
  toolCallId : Option String
  cacheControl : Option String
  deriving DecidableEq, Repr

/-- `content_as_text`: the texts of the items, `none` when there is no character. -/
def ChatMessage.contentAsText (m : ChatMessage) : Option String :=
  (m.content.map fun items => String.join (items.filterMap ChatContent.asText)).filter (!·.isEmpty)

/-- A function that the model may call. -/
structure FunctionDefinition where
  name : String
  description : Option String
  parameters : Option Json
  deriving Repr

/-- A tool that is offered to the model. -/
structure Tool where
  type : String
  function : FunctionDefinition
  deriving Repr

/-- The schema that an answer has to fit. -/
structure JsonSchema where
  name : String
  schema : Option Json
  strict : Option Bool
  deriving Repr

/-- The format that an answer has to have. -/
inductive ResponseFormat where
  | text
  | jsonObject
  | jsonSchema (schema : JsonSchema)
  deriving Repr

/-- A chat request. `parameters` is everything else: the sampling parameters, `tool_choice` and the
    like. -/
structure ChatCompletionRequest where
  model : String
  messages : List ChatMessage
  stream : Option Bool
  maxTokens : Option Int32
  tools : Option (List Tool)
  responseFormat : Option ResponseFormat
  parameters : Json
  deriving Repr

/-- The tokens of an answer. -/
structure Usage where
  promptTokens : Int32
  completionTokens : Int32
  totalTokens : Int32
  deriving DecidableEq, Repr

/-- One of the answers. -/
structure ChatCompletionChoice where
  index : Int
  message : ChatMessage
  finishReason : Option String
  toolCalls : Option (List ToolCall)
  deriving DecidableEq, Repr

/-- The response of a provider, in the format of OpenAI. -/
structure ChatCompletionResponse where
  id : String
  model : String
  created : Int
  choices : List ChatCompletionChoice
  usage : Option Usage
  deriving DecidableEq, Repr

end Godwit
