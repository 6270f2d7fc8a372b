import Godwit.Providers.OpenAiCache

set_option autoImplicit false

/-! # Cached content (`godwit-providers/src/gemini_cache.rs`, and the cache of `gemini.rs`)

A call to Gemini can refer to content that its servers have cached. The provider looks for the id of such content
under a key of the request; only when there is none the request is sent without it. -/

namespace Godwit

/-! ## The key -/

/-- The key of cached content. -/
structure GeminiCacheKey where
  model : String
  messagesHash : UInt64
  systemInstructionHash : Option UInt64
  deriving DecidableEq

/-- `GeminiCacheKey::new`. -/
def GeminiCacheKey.new (H : KeyHasher) (model : String) (messages : List Json) (systemInstruction : Option String) :
    GeminiCacheKey where
  model := model
  messagesHash := H.hash (H.json.toString (.arr messages))
  systemInstructionHash := systemInstruction.map H.hash

/-- The texts of the system messages, with a blank line between them. -/
def ChatCompletionRequest.systemInstruction (request : ChatCompletionRequest) : String :=
  "\n\n".intercalate ((request.messages.filter fun m => m.role = "system").filterMap ChatMessage.contentAsText)

/-- The messages are hashed first, but their hash is not handed on. -/
def createCacheKey (H : KeyHasher) (request : ChatCompletionRequest) : GeminiCacheKey :=
  let _messagesHash := H.hash (H.json.toString (encodeMessages request.messages))
  let systemInstruction := request.systemInstruction
  .new H request.model [] (if systemInstruction.isEmpty then none else some systemInstruction)

/-! ## Cached content -/

/-- Content that was created at the provider. -/
structure CachedContent where
  id : String
  model : String
  messagesHash : UInt64
  createdAt : Instant
  ttl : ℚ≥0
  deriving DecidableEq

/-- `is_expired`. -/
def CachedContent.isExpired (content : CachedContent) (now : Instant) : Bool :=
  decide (content.createdAt + content.ttl < now)

/-- What `create_cached_content` returns for an answer with this id, at a reading of the clock. -/
def createdContent (H : KeyHasher) (model : Model) (request : ChatCompletionRequest) (ttl : Option ℚ≥0) (id : String)
    (now : Instant) : CachedContent where
  id := id
  model := model.providerModelId
  messagesHash := (createCacheKey H request).messagesHash
  createdAt := now
  ttl := ttl.getD (3600 : ℕ)

/-- Content with the request that it was created for. Nothing of the program reads the request. -/
structure CreatedContent where
  request : ChatCompletionRequest
  content : CachedContent

/-! ## Calls -/

/-- The adapter and its cache. -/
structure GeminiProvider where
  promptCache : PromptCache GeminiCacheKey CreatedContent

/-- `GeminiProvider::new`. -/
def GeminiProvider.new : GeminiProvider := ⟨.withConfig 10000 (3600 : ℕ)⟩

/-- `chat` up to the request: the content that it refers to. The clock is read by the cache, and again for the
    content's own lifetime. -/
def GeminiProvider.chat (H : KeyHasher) (p : GeminiProvider) (request : ChatCompletionRequest) (now checked : Instant) :
    Option CreatedContent × GeminiProvider :=
  if request.stream = some true then (none, p)
  else
    let cacheKey := createCacheKey H request
    match p.promptCache.get cacheKey now with
    | (some cached, promptCache) =>
      if !cached.content.isExpired checked then (some cached, ⟨promptCache⟩)
      else (none, ⟨(promptCache.remove cacheKey).2⟩)
    | (none, promptCache) => (none, ⟨promptCache⟩)

/-- What may happen next. -/
inductive GeminiEvent where
  /-- Content that was created for a request goes into the cache under the request's key. -/
  | store (created : CreatedContent) (now : Instant)
  | chat (request : ChatCompletionRequest) (now checked : Instant)

/-- A call with the content that it is answered with. -/
structure GeminiAnswer where
  request : ChatCompletionRequest
  cached : Option CreatedContent

/-- The answer to a request, and the adapter after the event. -/
def GeminiProvider.step (H : KeyHasher) (p : GeminiProvider) : GeminiEvent → Option GeminiAnswer × GeminiProvider
  | .store created now => (none, ⟨p.promptCache.insert (createCacheKey H created.request) created now⟩)
  | .chat request now checked =>
    (some ⟨request, (p.chat H request now checked).1⟩, (p.chat H request now checked).2)

/-- The answers to a sequence of events. -/
def GeminiProvider.answers (H : KeyHasher) (p : GeminiProvider) : List GeminiEvent → List GeminiAnswer
  | [] => []
  | e :: rest => (p.step H e).1.toList ++ (p.step H e).2.answers H rest

end Godwit
