import Godwit.Providers.ChatStream

set_option autoImplicit false

/-! # The translator of OpenAI streams (`godwit-providers/src/stream_translators/openai.rs`)

A second reader of chat-completion chunks: it decodes a chunk into types of its own and remembers whether it has
told the client of the finish. (A repeated key, which it refuses, cannot be seen in a parsed document.) Its name is
also that of a translator of the API, so it has a namespace. -/

namespace Godwit

namespace StreamTranslators

/-- A piece of an answer. -/
structure OpenAiDelta where
  content : Option String
  toolCalls : Option (List Json)
  deriving Repr

/-- One of the answers of a chunk. -/
structure OpenAiChoice where
  delta : Option OpenAiDelta
  finishReason : Option String
  deriving Repr

/-- The tokens of the answer. -/
structure OpenAiUsage where
  promptTokens : Int
  completionTokens : Int
  totalTokens : Int
  deriving DecidableEq, Repr

/-- A chunk of the stream. -/
structure OpenAiStreamChunk where
  choices : List OpenAiChoice
  usage : Option OpenAiUsage
  deriving Repr

/-- The derived `Deserialize` of `OpenAiDelta`. -/
def decodeOpenAiDelta : Decoder OpenAiDelta := fun json => do
  let field ← structFieldsFrom 0 ["content", "tool_calls"] json
  let content ← optionalDecode Json.asStr (field "content")
  let toolCalls ← optionalDecode (decodeList some) (field "tool_calls")
  pure ⟨content, toolCalls⟩

/-- The derived `Deserialize` of `OpenAiChoice`. -/
def decodeOpenAiChoice : Decoder OpenAiChoice := fun json => do
  let field ← structFieldsFrom 0 ["delta", "finish_reason"] json
  let delta ← optionalDecode decodeOpenAiDelta (field "delta")
  let finishReason ← optionalDecode Json.asStr (field "finish_reason")
  pure ⟨delta, finishReason⟩

/-- The derived `Deserialize` of `OpenAiUsage`: counts that are absent are zero. -/
def decodeOpenAiUsage : Decoder OpenAiUsage := fun json => do
  let field ← structFieldsFrom 0 ["prompt_tokens", "completion_tokens", "total_tokens"] json
  let promptTokens ← defaultField Json.asI64 0 (field "prompt_tokens")
  let completionTokens ← defaultField Json.asI64 0 (field "completion_tokens")
  let totalTokens ← defaultField Json.asI64 0 (field "total_tokens")
  pure ⟨promptTokens, completionTokens, totalTokens⟩

/-- The derived `Deserialize` of `OpenAiStreamChunk`. -/
def decodeOpenAiStreamChunk : Decoder OpenAiStreamChunk := fun json => do
  let field ← structFieldsFrom 0 ["choices", "usage"] json
  let choices ← defaultField (decodeList decodeOpenAiChoice) [] (field "choices")
  let usage ← optionalDecode decodeOpenAiUsage (field "usage")
  pure ⟨choices, usage⟩

/-- What the translator remembers between chunks. -/
structure OpenAiStreamTranslator where
  finishEmitted : Bool
  deriving DecidableEq, Repr

/-- `OpenAiStreamTranslator::new`. -/
def OpenAiStreamTranslator.new : OpenAiStreamTranslator := ⟨false⟩

/-- A chunk that the translator does not look into. -/
def skipsChunk (chunk : String) : Bool := (trimText chunk).isEmpty || trimText chunk = "[DONE]"

section Serde

-- What `serde_json` says of a text that it does not read as a chunk.
variable (json : JsonCodec) (chunkError : String → String)

/-- The text of a delta, if it is not empty, and each of its tool calls. -/
def OpenAiDelta.events (delta : OpenAiDelta) : List SseEvent :=
  ((delta.content.filter fun content => ! content.isEmpty).toList.map fun content => ⟨buildSseDelta json content⟩)
    ++ (delta.toolCalls.getD []).map fun call => ⟨buildSseDelta json (json.toString call)⟩

/-- The finish event, once. -/
def OpenAiStreamTranslator.pushFinish (t : OpenAiStreamTranslator) (usage : Option OpenAiUsage)
    (finishReason : Option String) : List SseEvent × OpenAiStreamTranslator :=
  match finishReason with
  | none => ([], t)
  | some reason =>
    if ! reason.isEmpty && ! t.finishEmitted then
      let promptTokens := (usage.map OpenAiUsage.promptTokens).getD 0
      let completionTokens := (usage.map OpenAiUsage.completionTokens).getD 0
      ([⟨buildSseFinish json promptTokens completionTokens (some reason)⟩], { t with finishEmitted := true })
    else ([], t)

/-- The loop over the choices. -/
def OpenAiStreamTranslator.pushChoices (usage : Option OpenAiUsage) (t : OpenAiStreamTranslator) :
    List OpenAiChoice → List SseEvent × OpenAiStreamTranslator
  | [] => ([], t)
  | choice :: rest =>
    let deltas := choice.delta.elim [] (OpenAiDelta.events json)
    let finish := t.pushFinish json usage choice.finishReason
    let later := finish.2.pushChoices usage rest
    (deltas ++ finish.1 ++ later.1, later.2)

/-- `translate_chunk`. -/
def OpenAiStreamTranslator.translateChunk (t : OpenAiStreamTranslator) (chunk : String) :
    EventStream × OpenAiStreamTranslator :=
  if skipsChunk chunk then ([], t)
  else
    match (json.fromStr chunk).bind decodeOpenAiStreamChunk with
    | none => ([.ok ⟨buildSseError json ("failed to parse openai chunk: " ++ chunkError chunk)⟩], t)
    | some parsed =>
      let pushed := t.pushChoices json parsed.usage parsed.choices
      (pushed.1.map .ok, pushed.2)

/-- The events of a sequence of chunks. -/
def OpenAiStreamTranslator.translateChunks (t : OpenAiStreamTranslator) : List String → EventStream
  | [] => []
  | chunk :: rest =>
    let first := t.translateChunk json chunkError chunk
    first.1 ++ first.2.translateChunks rest

end Serde

end StreamTranslators

end Godwit
