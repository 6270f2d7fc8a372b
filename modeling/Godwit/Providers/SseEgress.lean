import Godwit.Providers.Streaming

set_option autoImplicit false

/-! # Stream egress (`godwit-providers/src/sse_egress.rs`)

The proxy's stream envelope is turned back into the frames of the OpenAI chat stream and of the
Anthropic message stream. Each translator is a state with a `push` per canonical event. -/

namespace Godwit

/-- A frame of a stream. -/
inductive ServerSentFrame where
  | data (payload : String)
  | event (name : String) (payload : String)
  deriving DecidableEq, Repr

/-- `render`: the lines of a frame. -/
def ServerSentFrame.render : ServerSentFrame → String
  | .data payload => "data: " ++ payload
  | .event name payload => "event: " ++ name ++ "\ndata: " ++ payload

/-- The events of the gateway. -/
inductive CanonicalEvent where
  | delta (text : String)
  | toolCall (packed : String)
  | finish (promptTokens completionTokens : Int) (finishReason : Option String)
  | error (message : String)
  | unknown
  deriving DecidableEq, Repr

/-- `as i32` of an `i64`. -/
def asI32 (n : Int) : Int := (n + 2 ^ 31) % 2 ^ 32 - 2 ^ 31

/-- The 32-bit counters can hold the number. -/
def FitsI32 (n : Int) : Prop := -2 ^ 31 ≤ n ∧ n < 2 ^ 31

section Codec

variable (json : JsonCodec)

/-- Tell the events of the envelope apart. A delta that starts with `{` is taken for a tool call. -/
def parseCanonicalEvent (data : String) : CanonicalEvent :=
  match json.fromStr data with
  | none => .unknown
  | some parsed =>
    match (parsed.get "type").bind Json.asStr with
    | some "delta" =>
      let delta := ((parsed.get "delta").bind Json.asStr).getD ""
      if delta.toList.head? = some '{' then .toolCall delta else .delta delta
    | some "finish" =>
      let usage := parsed.get "usage"
      .finish (asI32 (usageCount usage "prompt_tokens"))
        (asI32 (usageCount usage "completion_tokens"))
        ((parsed.get "finish_reason").bind Json.asStr)
    | some "error" => .error (((parsed.get "message").bind Json.asStr).getD "")
    | _ => .unknown

/-- `str::to_ascii_lowercase`. -/
def toAsciiLowercase (s : String) : String := s.map Char.toLower

/-- `canonical_to_openai_finish`: an unknown reason becomes `stop`. -/
def canonicalToOpenaiFinish (reason : Option String) : String :=
  match reason.map toAsciiLowercase with
  | some "end_turn" => "stop"
  | some "max_tokens" => "length"
  | some "tool_use" => "tool_calls"
  | some "stop" => "stop"
  | some "length" => "length"
  | some "tool_calls" => "tool_calls"
  | some "content_filter" => "content_filter"
  | some _ => "stop"
  | none => "stop"

/-- `canonical_to_anthropic_stop`: an unknown reason becomes `end_turn`. -/
def canonicalToAnthropicStop (reason : Option String) : String :=
  match reason.map toAsciiLowercase with
  | some "stop" => "end_turn"
  | some "length" => "max_tokens"
  | some "tool_calls" => "tool_use"
  | some "end_turn" => "end_turn"
  | some "max_tokens" => "max_tokens"
  | some "tool_use" => "tool_use"
  | some "content_filter" => "end_turn"
  | some _ => "end_turn"
  | none => "end_turn"

/-! ## OpenAI frames -/

/-- What the translator remembers between events. -/
structure OpenAiStreamTranslator where
  id : String
  model : String
  created : Int
  started : Bool
  finished : Bool
  deriving DecidableEq, Repr

/-- `OpenAiStreamTranslator::new`. -/
def OpenAiStreamTranslator.new (id model : String) (created : Int) : OpenAiStreamTranslator :=
  ⟨id, model, created, false, false⟩

/-- The payload of a chunk with one choice. -/
def openaiPayload (t : OpenAiStreamTranslator) (choice : List (String × Json)) : Json :=
  .object [
    ("id", .str t.id),
    ("object", .str "chat.completion.chunk"),
    ("created", .int t.created),
    ("model", .str t.model),
    ("choices", .arr [.obj choice])]

/-- A chunk with one choice. -/
def openaiChunk (t : OpenAiStreamTranslator) (choice : List (String × Json)) : ServerSentFrame :=
  .data (json.toString (openaiPayload t choice))

/-- The fields that every choice starts from. -/
def openaiChoiceCommon : List (String × Json) :=
  objectFields [("index", .int 0), ("finish_reason", .null)]

/-- A choice that carries a delta. -/
def deltaChoice (delta : Json) : List (String × Json) := setField "delta" delta openaiChoiceCommon

/-- The choice that ends the answer. -/
def finishChoice (finishReason : Option String) : List (String × Json) :=
  setField "delta" (.object [])
    (setField "finish_reason" (.str (canonicalToOpenaiFinish finishReason)) openaiChoiceCommon)

/-- The fields of a tool call, with its id when there is one. -/
def toolCallFields (id : String) (fields : List (String × Json)) : Json :=
  if id.isEmpty then .obj fields else .obj (setField "id" (.str id) fields)

/-- The chunks of a packed tool call: one opens the call, one carries its arguments. -/
def OpenAiStreamTranslator.toolCallChunks (t : OpenAiStreamTranslator) (packed : String) :
    List ServerSentFrame :=
  match json.fromStr packed with
  | none => []
  | some parsed =>
    let index := ((parsed.get "index").bind Json.asI64).getD 0
    let id := ((parsed.get "id").bind Json.asStr).getD ""
    let name := (((parsed.get "function").bind (Json.get "name")).bind Json.asStr).getD ""
    let args := (((parsed.get "function").bind (Json.get "arguments")).bind Json.asStr).getD ""
    let opening :=
      if !id.isEmpty || !name.isEmpty then
        let call := toolCallFields id (objectFields [
          ("index", .int index),
          ("type", .str "function"),
          ("function", .object [("name", .str name), ("arguments", .str "")])])
        [openaiChunk json t (deltaChoice (.object [("tool_calls", .arr [call])]))]
      else []
    let arguments :=
      if !args.isEmpty then
        let call := toolCallFields id (objectFields [
          ("index", .int index),
          ("type", .str "function"),
          ("function", .object [("arguments", .str args)])])
        [openaiChunk json t (deltaChoice (.object [("tool_calls", .arr [call])]))]
      else []
    opening ++ arguments

/-- An error in the format of OpenAI. -/
def openaiError (message : String) : Json :=
  .object [("error", .object [
    ("message", .str message),
    ("type", .str "server_error"),
    ("param", .null),
    ("code", .null)])]

/-- The chunk that opens the message. -/
def OpenAiStreamTranslator.roleFrames (t : OpenAiStreamTranslator) : List ServerSentFrame :=
  if t.started then []
  else [openaiChunk json t (deltaChoice (.object [("role", .str "assistant"), ("content", .str "")]))]

/-- `push`: the frames of an event; nothing follows the finish. -/
def OpenAiStreamTranslator.push (t : OpenAiStreamTranslator) (event : SseEvent) :
    List ServerSentFrame × OpenAiStreamTranslator :=
  if t.finished then ([], t)
  else
    let opening := t.roleFrames json
    let t := { t with started := true }
    match parseCanonicalEvent json event.data with
    | .delta text =>
      (opening ++ [openaiChunk json t (deltaChoice (.object [("content", .str text)]))], t)
    | .toolCall packed => (opening ++ t.toolCallChunks json packed, t)
    | .finish _ _ finishReason =>
      (opening ++ [openaiChunk json t (finishChoice finishReason)], { t with finished := true })
    | .error message =>
      (opening ++ [.data (json.toString (openaiError message))], { t with finished := true })
    | .unknown => (opening, t)

/-! ## Anthropic frames -/

/-- What the translator remembers between events. -/
structure AnthropicStreamTranslator where
  id : String
  model : String
  started : Bool
  finished : Bool
  deriving DecidableEq, Repr

/-- `AnthropicStreamTranslator::new`. -/
def AnthropicStreamTranslator.new (id model : String) : AnthropicStreamTranslator :=
  ⟨id, model, false, false⟩

/-- The event that opens a message. -/
def messageStart (t : AnthropicStreamTranslator) : Json :=
  .object [
    ("type", .str "message_start"),
    ("message", .object [
      ("id", .str t.id),
      ("type", .str "message"),
      ("role", .str "assistant"),
      ("model", .str t.model),
      ("content", .arr []),
      ("stop_reason", .null),
      ("stop_sequence", .null),
      ("usage", .object [("input_tokens", .int 0), ("output_tokens", .int 0)])])]

/-- The event that opens the only block. -/
def contentBlockStart : Json :=
  .object [
    ("type", .str "content_block_start"),
    ("index", .int 0),
    ("content_block", .object [("type", .str "text"), ("text", .str "")])]

/-- The event with a piece of the block. -/
def contentBlockDelta (delta : Json) : Json :=
  .object [("type", .str "content_block_delta"), ("index", .int 0), ("delta", delta)]

/-- The event with the stop reason and the tokens. -/
def messageDelta (finishReason : Option String) (completionTokens : Int) : Json :=
  .object [
    ("type", .str "message_delta"),
    ("delta", .object [
      ("stop_reason", .str (canonicalToAnthropicStop finishReason)),
      ("stop_sequence", .null)]),
    ("usage", .object [("output_tokens", .int completionTokens)])]

/-- The arguments of a packed tool call, if there are any. -/
def extractPartialJson (packed : String) : Option String :=
  match json.fromStr packed with
  | none => none
  | some parsed =>
    match ((parsed.get "function").bind (Json.get "arguments")).bind Json.asStr with
    | none => none
    | some args => if args.isEmpty then none else some args

/-- The frames that open the message and its one text block. -/
def AnthropicStreamTranslator.startFrames (t : AnthropicStreamTranslator) :
    List ServerSentFrame :=
  if t.started then []
  else [.event "message_start" (json.toString (messageStart t)),
    .event "content_block_start" (json.toString contentBlockStart)]

/-- The frame that ends a message. -/
def messageStop : ServerSentFrame :=
  .event "message_stop" (json.toString (.object [("type", .str "message_stop")]))

/-- `push`: the frames of an event; nothing follows the finish. -/
def AnthropicStreamTranslator.push (t : AnthropicStreamTranslator) (event : SseEvent) :
    List ServerSentFrame × AnthropicStreamTranslator :=
  if t.finished then ([], t)
  else
    let opening := t.startFrames json
    let t := { t with started := true }
    match parseCanonicalEvent json event.data with
    | .delta text =>
      (opening ++ [.event "content_block_delta" (json.toString (contentBlockDelta
        (.object [("type", .str "text_delta"), ("text", .str text)])))], t)
    | .toolCall packed =>
      match extractPartialJson json packed with
      | some partialJson =>
        (opening ++ [.event "content_block_delta" (json.toString (contentBlockDelta
          (.object [("type", .str "input_json_delta"), ("partial_json", .str partialJson)])))], t)
      | none => (opening, t)
    | .finish _ completionTokens finishReason =>
      (opening ++ [.event "message_delta"
          (json.toString (messageDelta finishReason completionTokens)), messageStop json],
        { t with finished := true })
    | .error message =>
      (opening ++ [.data (json.toString (.object [("type", .str "error"),
          ("error", .object [("type", .str "api_error"), ("message", .str message)])])),
          messageStop json],
        { t with finished := true })
    | .unknown => (opening, t)

end Codec

end Godwit
