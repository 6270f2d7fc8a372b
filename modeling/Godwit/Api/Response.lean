import Godwit.Providers.Adapter
import Godwit.Providers.SseEgress

set_option autoImplicit false

/-! # Responses of the endpoints -/

namespace Godwit

/-- How a stream is written to the client: the events as they are, or as chunks of this id, model
    and creation time. -/
inductive StreamWire where
  | canonical
  | openai (id model : String) (created : Int)
  | anthropic (id model : String)
  deriving DecidableEq, Repr

/-- A block of an answer of `/v1/messages`. -/
inductive AnthropicContentBlock where
  | text (text : String)
  | toolUse (id name : String) (input : Json)
  deriving Repr

/-- `AnthropicMessagesResponse`, with the two usage counts inline. -/
structure AnthropicMessagesResponse where
  id : String
  model : String
  content : List AnthropicContentBlock
  stopReason : Option String
  inputTokens : Int32
  outputTokens : Int32
  deriving Repr

/-- A response of an endpoint. A stream is kept as what it is written from: the upstream events, and
    whether tool calls in them are resolved on the way. -/
inductive Response where
  | completion (completion : ChatCompletionResponse)
  | sse (events : EventStream) (resolvesTools : Bool) (wire : StreamWire)
  | messages (response : AnthropicMessagesResponse)
  | json (status : Nat) (body : Json)
  | bytes (contentType : String) (bytes : Bytes)
  deriving Repr

/-! ## The body of a stream (`call_chat` of `proxy.rs`, `attempt_anthropic_stream` of `anthropic_proxy.rs`)

Each event of an upstream stream becomes the data of some events of the response, which axum writes one
after another. -/

/-- `Event::default().data(..)` as axum writes it: each line after a `data: `, and an empty line. -/
def axumEvent (data : String) : List Char :=
  (data.toList.splitOn '\n').flatMap (fun line => dataPrefix ++ line ++ ['\n']) ++ ['\n']

/-- What is written in the place of an upstream error. -/
def StreamWire.upstreamError : StreamWire → Json
  | .canonical => .object [("error", .object [
      ("message", .str "upstream provider stream error"),
      ("type", .str "server_error")])]
  | .openai _ _ _ => openaiError "upstream provider stream error"
  | .anthropic _ _ => .object [("error", .object [
      ("type", .str "error"),
      ("message", .str "upstream provider stream error")])]

/-- The data of the events of a translated stream. -/
def translatedData {σ : Type} (push : σ → SseEvent → List ServerSentFrame × σ) (error : String) :
    σ → EventStream → List String
  | _, [] => []
  | t, .ok e :: rest =>
    (push t e).1.map ServerSentFrame.render ++ translatedData push error (push t e).2 rest
  | t, .error _ :: rest => error :: translatedData push error t rest

/-- The data of the events that the client receives. -/
def StreamWire.data (json : JsonCodec) (wire : StreamWire) (items : EventStream) : List String :=
  let error := json.toString wire.upstreamError
  match wire with
  | .canonical => items.map fun item =>
    match item with
    | .ok e => e.data
    | .error _ => error
  | .openai id model created =>
    translatedData (OpenAiStreamTranslator.push json) error (.new id model created) items
  | .anthropic id model => translatedData (AnthropicStreamTranslator.push json) error (.new id model) items

/-- The bytes of the response, as axum writes the events. -/
def StreamWire.body (json : JsonCodec) (wire : StreamWire) (items : EventStream) : String :=
  String.ofList ((wire.data json items).flatMap axumEvent)

end Godwit
