import Godwit.Core.Chat
import Godwit.Providers.Streaming
import Godwit.Providers.Usage

set_option autoImplicit false

/-! # Provider adapters (`godwit-providers/src/adapter.rs`)

What a provider is asked and what it answers. The responses of the media endpoints are handed on as
they are, so they are documents here. -/

namespace Godwit

/-- A body as it is transferred. -/
abbrev Bytes := List UInt8

/-- Where the provider is, and the key it is called with. -/
structure ResolvedProfile where
  baseUrl : String
  apiKey : Option String
  deriving DecidableEq, Repr, Inhabited

/-- The `thiserror` texts. -/
def ProviderError.toText : ProviderError → String
  | .http status message => "http error: " ++ toString status ++ ": " ++ message
  | .serialization message => "serialization error: " ++ message
  | .provider message => "provider error: " ++ message
  | .capabilityNotSupported message => "capability not supported: " ++ message

/-- The body of an embedding request. -/
structure EmbeddingRequest where
  model : String
  input : List String
  deriving DecidableEq, Repr

/-- The body of an image request. -/
structure ImageGenerationRequest where
  model : String
  prompt : String
  n : Option Int32
  size : Option String
  quality : Option String
  style : Option String
  deriving DecidableEq, Repr

/-- The body of a speech request. -/
structure AudioTtsRequest where
  model : String
  input : String
  voice : String
  responseFormat : Option String
  deriving DecidableEq, Repr

/-- A transcription request, without its file. -/
structure AudioSttRequest where
  model : String
  language : Option String
  responseFormat : Option String
  deriving DecidableEq, Repr

/-- An image edit request, without its file. -/
structure ImageEditRequest where
  model : String
  prompt : String
  n : Option Int32
  size : Option String
  responseFormat : Option String
  deriving DecidableEq, Repr

/-- The calls of the `Adapter` trait that return a whole response, with their arguments. -/
inductive AdapterRequest where
  | chat (request : ChatCompletionRequest)
  | embedding (request : EmbeddingRequest)
  | imageGeneration (request : ImageGenerationRequest)
  | audioTts (request : AudioTtsRequest)
  | audioStt (request : AudioSttRequest) (fileBytes : Bytes) (filename contentType : String)
  | imageEdit (request : ImageEditRequest) (imageBytes : Bytes) (imageFilename : String)
      (maskBytes : Option Bytes)
  deriving Repr

/-- What an adapter returns. -/
inductive ProviderResponse where
  | chat (completion : ChatCompletionResponse)
  | image (body : Json)
  | video (body : Json)
  | audioStt (body : Json)
  | embedding (body : Json)
  | bytes (bytes : Bytes) (contentType : String)
  | json (value : Json)
  deriving Repr

/-- The events of a stream, in order. -/
abbrev EventStream := List (Except ProviderError SseEvent)

/-! ## Web search tools (`web_search.rs`) -/

/-- The names under which a client may ask for the provider's own search. -/
def nativeWebSearchTools : List String :=
  ["web_search", "web_search_20250305", "google_search", "google_search_grounding"]

/-- `is_native_web_search_tool`. -/
def isNativeWebSearchTool (tool : Tool) : Bool := nativeWebSearchTools.contains tool.function.name

/-- The search that the gateway offers. -/
def webSearchTool : Tool where
  type := "function"
  function :=
    { name := "web_search"
      description := some "Search the web for current information using SearXNG"
      parameters := some (.object [
        ("type", .str "object"),
        ("properties", .object [("query", .object [
          ("type", .str "string"), ("description", .str "The search query")])]),
        ("required", .arr [.str "query"])]) }

end Godwit
