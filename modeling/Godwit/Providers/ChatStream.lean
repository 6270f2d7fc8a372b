import Godwit.Core.ChatWire
import Godwit.Lib.Utf8
import Godwit.Providers.Adapter
import Godwit.Providers.SseEgress

set_option autoImplicit false

/-! # Upstream chat streams (`chat_stream` of `openai.rs`, `anthropic.rs` and `gemini.rs`)

Each adapter turns what it reads of the upstream body into canonical events, one read after another. -/

namespace Godwit

/-- What one read of a response body gives: bytes, or the error of the client. -/
abbrev BodyRead := Except String Bytes

/-- `String::from_utf8_lossy`. -/
def fromUtf8Lossy (bytes : Bytes) : String := String.ofList (decodeLossy bytes)

/-- The text of a read, none when it failed. -/
def readText : BodyRead → String
  | .ok bytes => fromUtf8Lossy bytes
  | .error _ => ""

/-- `serde_json`, with what it says of a text that it does not read as a value, or as a chunk of Gemini. -/
structure StreamSerde where
  json : JsonCodec
  valueError : String → String
  chunkError : String → String

section Serde

variable (serde : StreamSerde)

/-! ## OpenAI -/

/-- `chat_stream` of the OpenAI adapter: every read is split on its own. -/
def openaiChatStream (reads : List BodyRead) : EventStream :=
  reads.flatMap fun bytes => (parseSseEvents (readText bytes)).flatMap (normalizeOpenaiSseEvent serde.json)

/-! ## Anthropic (`anthropic.rs`) -/

/-- A token count, cut to an `i32`. -/
def anthropicCount (usage : Json) (key : String) : Int := asI32 (((usage.get key).bind Json.asI64).getD 0)

/-- `build_sse_finish` of the Anthropic adapter: the finish reason is not in it. -/
def buildAnthropicSseFinish (usage : Json) : String :=
  let promptTokens := anthropicCount usage "input_tokens"
  let completionTokens := anthropicCount usage "output_tokens"
  serde.json.toString (.object [
    ("type", .str "finish"),
    ("usage", .object [
      ("prompt_tokens", .int promptTokens),
      ("completion_tokens", .int completionTokens),
      ("total_tokens", .int (asI32 (promptTokens + completionTokens)))])])

/-- `normalize_anthropic_sse_event`. -/
def normalizeAnthropicSseEvent (raw : SseEvent) : EventStream :=
  match serde.json.fromStr raw.data with
  | none =>
    [.ok ⟨buildSseError serde.json ("failed to parse anthropic sse event: " ++ serde.valueError raw.data)⟩]
  | some parsed =>
    match (parsed.get "type").bind Json.asStr with
    | none => [.ok ⟨buildSseError serde.json "anthropic sse event missing type field"⟩]
    | some eventType =>
      if eventType = "content_block_delta" then
        match ((parsed.get "delta").bind (Json.get "text")).bind Json.asStr with
        | some text => [.ok ⟨buildSseDelta serde.json text⟩]
        | none => []
      else if eventType = "message_delta" then
        match parsed.get "usage" with
        | some usage => [.ok ⟨buildAnthropicSseFinish serde usage⟩]
        | none => []
      else []

/-- `chat_stream` of the Anthropic adapter: every read is split on its own. -/
def anthropicChatStream (reads : List BodyRead) : EventStream :=
  reads.flatMap fun bytes => (parseSseEvents (readText bytes)).flatMap (normalizeAnthropicSseEvent serde)

/-! ## Gemini (`gemini_stream.rs`) -/

/-- A part of a candidate. -/
structure GeminiPartResponse where
  text : Option String
  deriving DecidableEq, Repr

/-- The content of a candidate. -/
structure GeminiContentResponse where
  parts : List GeminiPartResponse
  deriving DecidableEq, Repr

/-- One of the answers. -/
structure GeminiCandidate where
  content : GeminiContentResponse
  finishReason : Option String
  deriving DecidableEq, Repr

/-- The tokens of the answer so far. -/
structure GeminiUsageMetadata where
  promptTokenCount : Int
  candidatesTokenCount : Int
  totalTokenCount : Int
  cachedContentTokenCount : Option Int
  deriving DecidableEq, Repr

/-- A chunk of the stream. -/
structure GeminiStreamChunk where
  candidates : List GeminiCandidate
  usageMetadata : Option GeminiUsageMetadata
  deriving DecidableEq, Repr

/-- The fields of a derived structure whose last fields have defaults, so that an array may lack them. -/
def structFieldsFrom (least : Nat) (names : List String) : Decoder (String → Option Json)
  | .obj fields => some fun name => lookupField name fields
  | .arr items =>
    if least ≤ items.length ∧ items.length ≤ names.length then
      some fun name => lookupField name (names.zip items)
    else none
  | _ => none

/-- A field with `#[serde(default)]`. -/
def defaultField {α : Type} (decode : Decoder α) (default : α) (field : Option Json) : Option α :=
  match field with
  | none => some default
  | some value => decode value

/-- The derived `Deserialize` of `GeminiPartResponse`. -/
def decodeGeminiPart : Decoder GeminiPartResponse := fun json => do
  let field ← structFields ["text"] json
  let text ← optionalDecode Json.asStr (field "text")
  pure ⟨text⟩

/-- The derived `Deserialize` of `GeminiContentResponse`. -/
def decodeGeminiContent : Decoder GeminiContentResponse := fun json => do
  let field ← structFieldsFrom 0 ["parts"] json
  let parts ← defaultField (decodeList decodeGeminiPart) [] (field "parts")
  pure ⟨parts⟩

/-- The derived `Deserialize` of `GeminiCandidate`. -/
def decodeGeminiCandidate : Decoder GeminiCandidate := fun json => do
  let field ← structFieldsFrom 1 ["content", "finishReason"] json
  let content ← requiredField decodeGeminiContent (field "content")
  let finishReason ← optionalDecode Json.asStr (field "finishReason")
  pure ⟨content, finishReason⟩

/-- The derived `Deserialize` of `GeminiUsageMetadata`: counts that are absent are zero. -/
def decodeGeminiUsage : Decoder GeminiUsageMetadata := fun json => do
  let field ← structFieldsFrom 0
    ["promptTokenCount", "candidatesTokenCount", "totalTokenCount", "cachedContentTokenCount"] json
  let promptTokenCount ← defaultField Json.asI64 0 (field "promptTokenCount")
  let candidatesTokenCount ← defaultField Json.asI64 0 (field "candidatesTokenCount")
  let totalTokenCount ← defaultField Json.asI64 0 (field "totalTokenCount")
  let cachedContentTokenCount ← optionalDecode Json.asI64 (field "cachedContentTokenCount")
  pure ⟨promptTokenCount, candidatesTokenCount, totalTokenCount, cachedContentTokenCount⟩

/-- The derived `Deserialize` of `GeminiStreamChunk`. -/
def decodeGeminiChunk : Decoder GeminiStreamChunk := fun json => do
  let field ← structFieldsFrom 1 ["candidates", "usageMetadata"] json
  let candidates ← requiredField (decodeList decodeGeminiCandidate) (field "candidates")
  let usageMetadata ← optionalDecode decodeGeminiUsage (field "usageMetadata")
  pure ⟨candidates, usageMetadata⟩

/-- What the translator remembers between chunks. -/
structure GeminiStreamTranslator where
  accumulatedContent : String
  finishEmitted : Bool
  deriving DecidableEq, Repr

/-- `GeminiStreamTranslator::new`. -/
def GeminiStreamTranslator.new : GeminiStreamTranslator := ⟨"", false⟩

/-- The texts of a candidate that are not empty. -/
def GeminiCandidate.texts (candidate : GeminiCandidate) : List String :=
  candidate.content.parts.filterMap fun part => part.text.filter fun text => ! text.isEmpty

/-- The deltas of the texts, which are also accumulated. -/
def GeminiStreamTranslator.pushTexts (t : GeminiStreamTranslator) (texts : List String) :
    EventStream × GeminiStreamTranslator :=
  (texts.map fun text => .ok ⟨buildSseDelta serde.json text⟩,
    { t with accumulatedContent := texts.foldl (· ++ ·) t.accumulatedContent })

/-- The first reason to finish that is not empty is the one that counts. -/
def GeminiStreamTranslator.pushFinish (t : GeminiStreamTranslator) (usage : Option GeminiUsageMetadata)
    (finishReason : Option String) : EventStream × GeminiStreamTranslator :=
  match finishReason with
  | none => ([], t)
  | some reason =>
    if ! reason.isEmpty && ! t.finishEmitted then
      let promptTokens := (usage.map (·.promptTokenCount)).getD 0
      let completionTokens := (usage.map (·.candidatesTokenCount)).getD 0
      ([.ok ⟨buildSseFinish serde.json promptTokens completionTokens (some reason)⟩],
        { t with finishEmitted := true })
    else ([], t)

/-- The loop over the candidates. -/
def GeminiStreamTranslator.pushCandidates (usage : Option GeminiUsageMetadata) (t : GeminiStreamTranslator) :
    List GeminiCandidate → EventStream × GeminiStreamTranslator
  | [] => ([], t)
  | candidate :: rest =>
    let texts := t.pushTexts serde candidate.texts
    let finish := texts.2.pushFinish serde usage candidate.finishReason
    let later := finish.2.pushCandidates usage rest
    (texts.1 ++ finish.1 ++ later.1, later.2)

/-- `translate_chunk`: a blank chunk is skipped, a broken one reported. -/
def GeminiStreamTranslator.translateChunk (t : GeminiStreamTranslator) (chunk : String) :
    EventStream × GeminiStreamTranslator :=
  if (trimText chunk).isEmpty then ([], t)
  else
    match (serde.json.fromStr chunk).bind decodeGeminiChunk with
    | none =>
      ([.ok ⟨buildSseError serde.json ("failed to parse gemini chunk: " ++ serde.chunkError chunk)⟩], t)
    | some parsed => t.pushCandidates serde parsed.usageMetadata parsed.candidates

/-- The loop over the events of a read. -/
def GeminiStreamTranslator.translateEvents (t : GeminiStreamTranslator) :
    List SseEvent → EventStream × GeminiStreamTranslator
  | [] => ([], t)
  | sseEvent :: rest =>
    let first := t.translateChunk serde sseEvent.data
    let later := first.2.translateEvents rest
    (first.1 ++ later.1, later.2)

/-- The texts of the reads that did not fail, one after another. -/
def GeminiStreamTranslator.translateReads (t : GeminiStreamTranslator) : List String → EventStream
  | [] => []
  | text :: rest =>
    let events := t.translateEvents serde (parseSseEvents text)
    events.1 ++ events.2.translateReads rest

/-- `chat_stream` of the Gemini adapter: every read is split on its own, failed ones are dropped. -/
def geminiChatStream (reads : List BodyRead) : EventStream :=
  GeminiStreamTranslator.new.translateReads serde
    (reads.filterMap fun read => (read.map fromUtf8Lossy).toOption)

/-! ## The adapters that stream -/

/-- The adapters that stream. -/
inductive StreamingAdapter where
  | openai
  | anthropic
  | gemini
  deriving DecidableEq, Repr

/-- `chat_stream` of each. -/
def StreamingAdapter.chatStream : StreamingAdapter → List BodyRead → EventStream
  | .openai => openaiChatStream serde
  | .anthropic => anthropicChatStream serde
  | .gemini => geminiChatStream serde

end Serde

end Godwit
