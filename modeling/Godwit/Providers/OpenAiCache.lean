import Godwit.Lib.JsonObject
import Godwit.Providers.Adapter
import Godwit.Providers.OpenAi
import Godwit.Providers.PromptCache

set_option autoImplicit false

/-! # Cached chat completions (`godwit-providers/src/openai.rs`)

One provider serves all calls, whatever their profile and model. A call first looks for a response in the
prompt cache; only when there is none the upstream is asked, and its answer is stored. Between the two other
calls come and go. -/

namespace Godwit

/-! ## The key -/

/-- What a key is computed with: the JSON printer, `DefaultHasher` on one string, and `(t * 100.0) as u32` on a
    temperature. -/
structure KeyHasher where
  json : JsonCodec
  hash : String → UInt64
  hundredths : Json → UInt32

/-- The derived `Serialize` of `ChatMessage`. -/
def encodeChatMessage (m : ChatMessage) : Json :=
  .obj [("cache_control", (m.cacheControl.map fun type => Json.obj [("type", .str type)]).getD .null),
    ("content", serializeChatContent m.content), ("name", encodeOption m.name), ("role", .str m.role),
    ("tool_call_id", encodeOption m.toolCallId),
    ("tool_calls", (m.toolCalls.map fun calls => Json.arr (calls.map encodeToolCall)).getD .null)]

/-- The derived `Serialize` of `ResponseFormat`. -/
def encodeResponseFormat : ResponseFormat → Json
  | .text => .obj [("type", .str "text")]
  | .jsonObject => .obj [("type", .str "json_object")]
  | .jsonSchema schema =>
    .obj [("json_schema", .obj [("name", .str schema.name), ("schema", schema.schema.getD .null),
        ("strict", (schema.strict.map .bool).getD .null)]),
      ("type", .str "json_schema")]

/-- The messages as the key hashes them. -/
def encodeMessages (messages : List ChatMessage) : Json := .arr (messages.map encodeChatMessage)

/-- The key of an answer. -/
structure PromptCacheKey where
  model : String
  messagesHash : UInt64
  temperature : Option UInt32
  maxTokens : Option Int32
  responseFormatHash : Option UInt64
  deriving DecidableEq

/-- `PromptCacheKey::from_request`: five fields of the request. -/
def PromptCacheKey.fromRequest (H : KeyHasher) (request : ChatCompletionRequest) : PromptCacheKey where
  model := request.model
  messagesHash := H.hash (H.json.toString (encodeMessages request.messages))
  temperature := (request.parameters.get "temperature").map H.hundredths
  maxTokens := request.maxTokens
  responseFormatHash := request.responseFormat.map fun rf => H.hash (H.json.toString (encodeResponseFormat rf))

/-! ## One call -/

/-- The fields of a request that are not handed on as they are. -/
def ownFields : List String := ["model", "messages", "stream", "max_tokens", "tools", "response_format"]

/-- The parameters are an object of other fields, as a request has them that was read from JSON. -/
structure ChatCompletionRequest.Read (request : ChatCompletionRequest) : Prop where
  ascend : keysAscend request.parameters.fields = true
  others : ∀ name ∈ ownFields, lookupField name request.parameters.fields = none

/-- A call of the adapter, with a request that was read. -/
structure OpenAiCall where
  profile : ResolvedProfile
  model : Model
  request : ChatCompletionRequest
  read : request.Read

/-- What is sent: the profile makes the address and the authorization, the rest is the body. -/
structure UpstreamRequest where
  baseUrl : String
  apiKey : Option String
  body : Json

/-- What is sent for the call. -/
def OpenAiCall.upstream (c : OpenAiCall) : UpstreamRequest :=
  ⟨c.profile.baseUrl, c.profile.apiKey, openaiChatRequest c.model.providerModelId c.request⟩

/-- The key of its request. -/
def OpenAiCall.cacheKey (H : KeyHasher) (c : OpenAiCall) : PromptCacheKey := .fromRequest H c.request

/-- The key under which an answer is stored: the model was translated in between. -/
def OpenAiCall.storeKey (H : KeyHasher) (c : OpenAiCall) : PromptCacheKey :=
  .fromRequest H { c.request with model := c.model.providerModelId }

section Cached

variable {V : Type} (H : KeyHasher)

/-- `chat` up to the request: what the cache has. -/
def OpenAiCall.start (c : OpenAiCall) (pc : PromptCache PromptCacheKey V) (now : Instant) :
    Option V × PromptCache PromptCacheKey V :=
  if c.request.stream ≠ some true then pc.get (c.cacheKey H) now else (none, pc)

/-- `chat` after a successful answer. -/
def OpenAiCall.finish (c : OpenAiCall) (pc : PromptCache PromptCacheKey V) (response : V) (now : Instant) :
    PromptCache PromptCacheKey V :=
  if c.request.stream ≠ some true then pc.insert (c.storeKey H) response now else pc

end Cached

/-! ## All calls -/

/-- An answer with its usage. -/
structure CachedChatResponse where
  response : ChatCompletionResponse
  usage : UsageReport

/-- A response with the call that the upstream answered with it. Nothing of the program reads the call. -/
structure AnsweredCall where
  call : OpenAiCall
  cached : CachedChatResponse

/-- The adapter: its cache and the calls it waits for. -/
structure OpenAiProvider where
  promptCache : PromptCache PromptCacheKey AnsweredCall
  /-- The calls whose request was sent. -/
  waiting : List OpenAiCall

/-- Its cache has the size and the lifetime of the default. -/
def OpenAiProvider.new : OpenAiProvider := ⟨.new, []⟩

/-- What may happen next. -/
inductive OpenAiEvent where
  | arrive (call : OpenAiCall) (now : Instant)
  /-- The upstream answers the call that waits at a position, or the request fails. -/
  | answer (position : Nat) (result : Except ProviderError CachedChatResponse) (now : Instant)

/-- What a call is answered, and from where. -/
structure OpenAiAnswer where
  call : OpenAiCall
  result : Except ProviderError CachedChatResponse
  /-- The call whose answer is given again. -/
  cachedFrom : Option OpenAiCall

/-- The answer of an event, and the adapter after it. -/
def OpenAiProvider.step (H : KeyHasher) (p : OpenAiProvider) :
    OpenAiEvent → Option OpenAiAnswer × OpenAiProvider
  | .arrive call now =>
    match call.start H p.promptCache now with
    | (some answered, promptCache) =>
      (some ⟨call, .ok answered.cached, some answered.call⟩, { p with promptCache := promptCache })
    | (none, promptCache) => (none, ⟨promptCache, p.waiting ++ [call]⟩)
  | .answer position result now =>
    match p.waiting[position]? with
    | none => (none, p)
    | some call =>
      match result with
      | .error e => (some ⟨call, .error e, none⟩, { p with waiting := p.waiting.eraseIdx position })
      | .ok cached =>
        (some ⟨call, .ok cached, none⟩,
          ⟨call.finish H p.promptCache ⟨call, cached⟩ now, p.waiting.eraseIdx position⟩)

/-- The adapter after the events. -/
def OpenAiProvider.after (H : KeyHasher) (p : OpenAiProvider) (events : List OpenAiEvent) : OpenAiProvider :=
  events.foldl (fun p e => (p.step H e).2) p

/-- The answers that the calls get in a history. -/
def OpenAiProvider.answers (H : KeyHasher) (p : OpenAiProvider) : List OpenAiEvent → List OpenAiAnswer
  | [] => []
  | e :: rest => (p.step H e).1.toList ++ (p.step H e).2.answers H rest

end Godwit
