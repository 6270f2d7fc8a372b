import Godwit.Db.Catalog
import Godwit.Providers.Anthropic
import Mathlib.Data.NNRat.Floor

set_option autoImplicit false

/-! # Chat with a Gemini upstream (`godwit-providers/src/gemini.rs`, and the requests of `gemini_cache.rs`)

A chat request in the words of `generateContent`, in the two forms that the provider sends: whole, and beside
content that the servers have cached. Then the response as a completion; its candidates are read as those of a
stream are, its counts are narrower. -/

namespace Godwit

namespace GeminiProvider

/-! ## Contents -/

/-- Text without a comma stands for the data of a PNG. -/
def parseDataUrl (url : String) : String × String :=
  match url.toList.span (· ≠ ',') with
  | (header, _ :: data) => (AnthropicProvider.imageMediaType (String.ofList header), String.ofList data)
  | (_, []) => ("image/png", url)

/-- The image is in the URL. -/
def isDataUrl (url : String) : Bool := "data:".toList.isPrefixOf url.toList

/-- Data with its type. -/
structure GeminiBlob where
  mimeType : String
  data : String
  deriving DecidableEq, Repr

/-- A reference to data with its type. -/
structure GeminiFileData where
  mimeType : String
  fileUri : String
  deriving DecidableEq, Repr

/-- A part of a message. -/
inductive GeminiPart where
  | text (text : String)
  | inlineData (inlineData : GeminiBlob)
  | fileData (fileData : GeminiFileData)
  deriving DecidableEq, Repr

/-- A message of the request. -/
structure GeminiContent where
  role : String
  parts : List GeminiPart
  deriving DecidableEq, Repr

/-- What Gemini calls the role. -/
def geminiRole (role : String) : String := if role = "assistant" then "model" else role

/-- The part of a content part: an image is sent or referred to. -/
def geminiContentPart : ChatContentPart → GeminiPart
  | .text text => .text text
  | .imageUrl url _ =>
    if isDataUrl url then
      let (mediaType, data) := parseDataUrl url
      .inlineData ⟨mediaType, data⟩
    else .fileData ⟨"image/png", url⟩

/-- The parts of a content item. -/
def geminiContentParts : ChatContent → List GeminiPart
  | .text text => [.text text]
  | .parts parts => parts.map geminiContentPart

/-- `GeminiContent::from_chat_message`. -/
def GeminiContent.fromChatMessage (msg : ChatMessage) : GeminiContent where
  role := geminiRole msg.role
  parts := (msg.content.map fun contents => contents.flatMap geminiContentParts).getD []

/-! ## Requests -/

/-- The settings of the search, of which there are none. -/
structure GeminiGoogleSearchGrounding where
  deriving DecidableEq, Repr

/-- The only tool of the request. -/
structure GeminiTool where
  googleSearchGrounding : GeminiGoogleSearchGrounding
  deriving DecidableEq, Repr

/-- The sampling parameters. -/
structure GeminiGenerationConfig where
  maxOutputTokens : Option Int32
  temperature : Option Json
  topP : Option Json
  topK : Option Json
  stopSequences : Option (List String)
  seed : Option Json
  repetitionPenalty : Option Json
  deriving Repr

/-- The body of `generateContent`. -/
structure GeminiChatRequest where
  systemInstruction : Option String
  contents : List GeminiContent
  generationConfig : GeminiGenerationConfig
  tools : Option (List GeminiTool)
  deriving Repr

/-- The texts of the system messages that have one. -/
def systemTexts (request : ChatCompletionRequest) : List String :=
  (request.messages.filter (·.role = "system")).filterMap ChatMessage.contentAsText

/-- The messages without those of the system. -/
def conversation (request : ChatCompletionRequest) : List ChatMessage :=
  request.messages.filter (·.role ≠ "system")

/-- `has_native_web_search_tool`, of the tools that the request has. -/
def hasNativeWebSearchTool (request : ChatCompletionRequest) : Bool :=
  (request.tools.map fun tools => tools.any isNativeWebSearchTool).getD false

/-- `from_chat_request`: the system messages are joined, and the parameters get the names of Gemini. -/
def GeminiChatRequest.fromChatRequest (request : ChatCompletionRequest) : GeminiChatRequest :=
  let systemParts := systemTexts request
  { systemInstruction := if systemParts.isEmpty then none else some ("\n\n".intercalate systemParts)
    contents := (conversation request).map GeminiContent.fromChatMessage
    generationConfig :=
      { maxOutputTokens := some (request.maxTokens.getD 4096)
        temperature := request.parameters.get "temperature"
        topP := request.parameters.get "top_p"
        topK := request.parameters.get "top_k"
        stopSequences := (request.parameters.get "stop").bind AnthropicProvider.stopTexts
        seed := request.parameters.get "seed"
        repetitionPenalty := request.parameters.get "repetition_penalty" }
    tools := if hasNativeWebSearchTool request then some [⟨⟨⟩⟩] else none }

/-! ## Requests as documents -/

/-- What `serde_json` writes for a field of type `f32`, given the number that was read into it: the text of the
    `f32` where a structure is written, and of the `f64` of the same value where a `Value` is. -/
structure FloatTexts where
  single : Json → Json
  widened : Json → Json

/-- The derived `Serialize` of `GeminiBlob`. -/
def GeminiBlob.toValue (blob : GeminiBlob) : Json :=
  .object [("mimeType", .str blob.mimeType), ("data", .str blob.data)]

/-- The derived `Serialize` of `GeminiFileData`. -/
def GeminiFileData.toValue (file : GeminiFileData) : Json :=
  .object [("mimeType", .str file.mimeType), ("fileUri", .str file.fileUri)]

/-- The derived `Serialize` of `GeminiPart`. -/
def GeminiPart.toValue : GeminiPart → Json
  | .text s => .object [("text", .str s)]
  | .inlineData blob => .object [("inlineData", blob.toValue)]
  | .fileData file => .object [("fileData", file.toValue)]

/-- The derived `Serialize` of `GeminiContent`. -/
def GeminiContent.toValue (content : GeminiContent) : Json :=
  .object [("role", .str content.role), ("parts", .arr (content.parts.map GeminiPart.toValue))]

/-- The derived `Serialize` of `GeminiTool`. -/
def GeminiTool.toValue (_ : GeminiTool) : Json := .object [("googleSearchGrounding", .object [])]

/-- The derived `Serialize` of `GeminiGenerationConfig`: what is absent is left out, a float has its text as `f32`. -/
def GeminiGenerationConfig.toValue (floats : FloatTexts) (config : GeminiGenerationConfig) : Json :=
  .object (writtenField "maxOutputTokens" (config.maxOutputTokens.map fun n => .int n.toInt)
    ++ writtenField "temperature" (config.temperature.map floats.single)
    ++ writtenField "topP" (config.topP.map floats.single)
    ++ writtenField "topK" config.topK
    ++ writtenField "stopSequences" (config.stopSequences.map fun texts => .arr (texts.map .str))
    ++ writtenField "seed" config.seed
    ++ writtenField "repetitionPenalty" (config.repetitionPenalty.map floats.single))

/-- The body of `chat_without_cache`. -/
def GeminiChatRequest.toValue (floats : FloatTexts) (request : GeminiChatRequest) : Json :=
  .object (writtenField "systemInstruction" (request.systemInstruction.map .str)
    ++ [("contents", .arr (request.contents.map GeminiContent.toValue)),
      ("generationConfig", request.generationConfig.toValue floats)]
    ++ writtenField "tools" (request.tools.map fun tools => .arr (tools.map GeminiTool.toValue)))

/-! ## Cached content

The cached path writes its contents as documents at once, in `create_cached_content` and `generate_with_cache`
alike. -/

/-- The part of a content part in the cached call. -/
def cachedPart : ChatContentPart → Json
  | .text text => .object [("text", .str text)]
  | .imageUrl url _ =>
    if isDataUrl url then
      let (mediaType, data) := parseDataUrl url
      .object [("inlineData", .object [("mimeType", .str mediaType), ("data", .str data)])]
    else .object [("fileData", .object [("mimeType", .str "image/png"), ("fileUri", .str url)])]

/-- The parts of a content item in the cached call. -/
def cachedParts : ChatContent → List Json
  | .text text => [.object [("text", .str text)]]
  | .parts parts => parts.map cachedPart

/-- A message of the cached call, written with `json!`. -/
def cachedMessage (msg : ChatMessage) : Json :=
  let parts := (msg.content.map fun contents => contents.flatMap cachedParts).getD []
  .object [("role", .str (geminiRole msg.role)), ("parts", .arr parts)]

/-- The body that creates cached content. -/
structure CreateCachedContentRequest where
  contents : List Json
  systemInstruction : Option String
  model : String
  displayName : Option String
  ttl : Option String
  deriving Repr

/-- The body of the cached call. -/
structure GenerateWithCacheRequest where
  contents : List Json
  systemInstruction : Option String
  generationConfig : Option Json
  tools : Option (List Json)
  cachedContent : Option String
  deriving Repr

/-- What `create_cached_content` sends. -/
def createCachedContent (model : Model) (request : ChatCompletionRequest) (ttl : Option ℚ≥0) :
    CreateCachedContentRequest where
  contents := (conversation request).map cachedMessage
  systemInstruction := (systemTexts request).head?
  model := model.providerModelId
  displayName := none
  ttl := ttl.map fun d => toString ⌊d⌋₊ ++ "s"

/-- What `generate_with_cache` sends. The temperature stands in a `Value`, which has no `f32`. -/
def generateWithCache (floats : FloatTexts) (request : ChatCompletionRequest) (cachedContentId : String) :
    GenerateWithCacheRequest where
  contents := (conversation request).map cachedMessage
  systemInstruction := (systemTexts request).head?
  generationConfig := some (.object [
    ("maxOutputTokens", .int (request.maxTokens.getD 4096).toInt),
    ("temperature", ((request.parameters.get "temperature").map floats.widened).getD .null)])
  tools := none
  cachedContent := some cachedContentId

/-- The derived `Serialize` of `CreateCachedContentRequest`: what is absent is left out. -/
def CreateCachedContentRequest.toValue (request : CreateCachedContentRequest) : Json :=
  .object ([("contents", .arr request.contents)]
    ++ writtenField "systemInstruction" (request.systemInstruction.map .str)
    ++ [("model", .str request.model)]
    ++ writtenField "displayName" (request.displayName.map .str)
    ++ writtenField "ttl" (request.ttl.map .str))

/-- The derived `Serialize` of `GenerateWithCacheRequest`: what is absent is left out. -/
def GenerateWithCacheRequest.toValue (request : GenerateWithCacheRequest) : Json :=
  .object ([("contents", .arr request.contents)]
    ++ writtenField "systemInstruction" (request.systemInstruction.map .str)
    ++ writtenField "generationConfig" request.generationConfig
    ++ writtenField "tools" (request.tools.map .arr)
    ++ writtenField "cachedContent" (request.cachedContent.map .str))

/-! ## Responses -/

/-- The tokens of the answer. -/
structure GeminiUsageMetadata where
  promptTokenCount : Int32
  candidatesTokenCount : Int32
  totalTokenCount : Int32
  cachedContentTokenCount : Option Int32
  deriving DecidableEq, Repr

/-- The answer of `generateContent`. -/
structure GeminiChatResponse where
  candidates : List GeminiCandidate
  usageMetadata : Option GeminiUsageMetadata
  deriving DecidableEq, Repr

/-- The derived `Deserialize` of `GeminiUsageMetadata`: counts that are absent are zero. -/
def decodeGeminiUsage : Decoder GeminiUsageMetadata := fun json => do
  let field ← structFieldsFrom 0
    ["promptTokenCount", "candidatesTokenCount", "totalTokenCount", "cachedContentTokenCount"] json
  let promptTokenCount ← defaultField decodeI32 0 (field "promptTokenCount")
  let candidatesTokenCount ← defaultField decodeI32 0 (field "candidatesTokenCount")
  let totalTokenCount ← defaultField decodeI32 0 (field "totalTokenCount")
  let cachedContentTokenCount ← optionalDecode decodeI32 (field "cachedContentTokenCount")
  pure ⟨promptTokenCount, candidatesTokenCount, totalTokenCount, cachedContentTokenCount⟩

/-- The derived `Deserialize` of `GeminiChatResponse`. -/
def decodeGeminiChatResponse : Decoder GeminiChatResponse := fun json => do
  let field ← structFieldsFrom 1 ["candidates", "usageMetadata"] json
  let candidates ← requiredField (decodeList decodeGeminiCandidate) (field "candidates")
  let usageMetadata ← optionalDecode decodeGeminiUsage (field "usageMetadata")
  pure ⟨candidates, usageMetadata⟩

/-- The completion, with its id, made at the second `created`. -/
def geminiResponseToChatCompletion (id : String) (created : Int) (response : GeminiChatResponse) (modelId : String) :
    Except ProviderError ChatCompletionResponse :=
  match response.candidates with
  | [] => .error (.provider "Gemini response contained no candidates")
  | candidate :: _ =>
    let content := String.join (candidate.content.parts.filterMap GeminiPartResponse.text)
    .ok
      { id := id
        model := modelId
        created := created
        choices := [{
          index := 0
          message :=
            { role := "assistant"
              content := some [.text content]
              name := none
              toolCalls := none
              toolCallId := none
              cacheControl := none }
          finishReason := candidate.finishReason
          toolCalls := none }]
        usage := response.usageMetadata.map fun usage =>
          { promptTokens := usage.promptTokenCount
            completionTokens := usage.candidatesTokenCount
            totalTokens := usage.totalTokenCount } }

end GeminiProvider

end Godwit
