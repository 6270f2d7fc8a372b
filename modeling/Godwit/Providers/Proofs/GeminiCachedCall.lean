import Godwit.Providers.Gemini

set_option autoImplicit false

/-! # Calls beside cached content

A call can refer to content that the servers of Gemini have: its conversation goes on where the content ends, and
what it does not give itself is as it was cached. Such a call repeats the whole conversation, has the first system
text alone and two of the parameters, one of them as a wider float, so that it says what the call without the cache
says only where the content holds no conversation, nothing else is asked for and the temperature has one text in both
widths (`generateWithCache_view_iff`). -/

namespace Godwit

namespace GeminiProvider

/-! ## What a call says -/

/-- A field that is given. -/
def given (key : String) (body : Json) : Option Json := givenValue (body.get key)

/-- A field of the sampling parameters that is given. -/
def generationField (key : String) (body : Json) : Option Json := (body.get "generationConfig").bind (given key)

/-- The messages of a body. -/
def contentsOf (body : Json) : List Json := ((body.get "contents").bind Json.asArray).getD []

/-- What Gemini reads of a body. -/
structure GeminiView where
  systemInstruction : Option Json
  contents : List Json
  maxOutputTokens : Option Json
  temperature : Option Json
  topP : Option Json
  topK : Option Json
  stopSequences : Option Json
  seed : Option Json
  repetitionPenalty : Option Json
  tools : Option Json

/-- What Gemini is told by a call, with the content that it refers to. -/
def geminiView (cached : Option Json) (call : Json) : GeminiView where
  systemInstruction := (given "systemInstruction" call).or (cached.bind (given "systemInstruction"))
  contents := cached.elim [] contentsOf ++ contentsOf call
  maxOutputTokens := generationField "maxOutputTokens" call
  temperature := generationField "temperature" call
  topP := generationField "topP" call
  topK := generationField "topK" call
  stopSequences := generationField "stopSequences" call
  seed := generationField "seed" call
  repetitionPenalty := generationField "repetitionPenalty" call
  tools := (given "tools" call).or (cached.bind (given "tools"))

/-- A call for `request` beside the content that was cached for `created` leaves nothing out and says nothing
    twice. -/
structure CacheSuffices (floats : FloatTexts) (created request : ChatCompletionRequest) : Prop where
  contents : conversation created = []
  system : (systemTexts request).length ≤ 1
  cachedSystem : systemTexts request = [] → systemTexts created = []
  temperature : givenValue ((request.parameters.get "temperature").map floats.widened)
    = givenValue ((request.parameters.get "temperature").map floats.single)
  topP : givenValue ((request.parameters.get "top_p").map floats.single) = none
  topK : givenValue (request.parameters.get "top_k") = none
  stop : (request.parameters.get "stop").bind AnthropicProvider.stopTexts = none
  seed : givenValue (request.parameters.get "seed") = none
  repetitionPenalty : givenValue ((request.parameters.get "repetition_penalty").map floats.single) = none
  tools : hasNativeWebSearchTool request = false

/-! ## Messages -/

theorem cachedPart_eq (part : ChatContentPart) : cachedPart part = (geminiContentPart part).toValue := by
  cases part with
  | text text => rfl
  | imageUrl url detail =>
      simp only [cachedPart, geminiContentPart]
      split_ifs <;> rfl

theorem cachedParts_eq (content : ChatContent) :
    cachedParts content = (geminiContentParts content).map GeminiPart.toValue := by
  cases content with
  | text text => rfl
  | parts parts =>
      rw [cachedParts, geminiContentParts, List.map_map]
      exact List.map_congr_left fun part _ => cachedPart_eq part

/-- Both paths write a message alike. -/
theorem cachedMessage_eq (msg : ChatMessage) : cachedMessage msg = (GeminiContent.fromChatMessage msg).toValue := by
  have hparts : ∀ contents : List ChatContent, contents.flatMap cachedParts
      = (contents.flatMap geminiContentParts).map GeminiPart.toValue := by
    intro contents
    rw [List.map_flatMap]
    exact congrArg contents.flatMap (funext cachedParts_eq)
  unfold cachedMessage GeminiContent.toValue GeminiContent.fromChatMessage
  cases msg.content with
  | none => rfl
  | some contents => simp only [Option.map_some, Option.getD_some, hparts]

/-! ## Fields of the bodies -/

theorem givenValue_map {α : Type} {write : α → Json} (hwrite : ∀ a, write a ≠ .null) (value : Option α) :
    givenValue (value.map write) = value.map write := by
  cases value with
  | none => rfl
  | some a => exact givenValue_some (hwrite a)

/-- What is not given may be written as null. -/
theorem givenValue_getD (value : Option Json) : givenValue (some (value.getD .null)) = givenValue value := by
  cases value <;> rfl

theorem get_object (key : String) (fields : List (String × Json)) :
    (Json.object fields).get key = lookupField key fields.reverse := lookupField_objectFields key fields

attribute [local simp] get_object lookupField lookupField_append lookupField_writtenField Json.asArray

/-- The call without the cache says what its request has. -/
theorem geminiView_chatRequest (floats : FloatTexts) (request : GeminiChatRequest) :
    geminiView none (request.toValue floats) =
    { systemInstruction := request.systemInstruction.map .str
      contents := request.contents.map GeminiContent.toValue
      maxOutputTokens := request.generationConfig.maxOutputTokens.map fun n => .int n.toInt
      temperature := givenValue (request.generationConfig.temperature.map floats.single)
      topP := givenValue (request.generationConfig.topP.map floats.single)
      topK := givenValue request.generationConfig.topK
      stopSequences := request.generationConfig.stopSequences.map fun texts => .arr (texts.map .str)
      seed := givenValue request.generationConfig.seed
      repetitionPenalty := givenValue (request.generationConfig.repetitionPenalty.map floats.single)
      tools := request.tools.map fun tools => .arr (tools.map GeminiTool.toValue) } := by
  simp [geminiView, given, generationField, contentsOf, GeminiChatRequest.toValue, GeminiGenerationConfig.toValue,
    givenValue_map]

/-- The one beside cached content has the contents of both, and no parameter but two. -/
theorem geminiView_generateWithCache (floats : FloatTexts) (model : Model) (created request : ChatCompletionRequest)
    (ttl : Option ℚ≥0) (cachedContentId : String) :
    geminiView (some (createCachedContent model created ttl).toValue)
        (generateWithCache floats request cachedContentId).toValue =
      { systemInstruction := ((systemTexts request).head?.or (systemTexts created).head?).map .str
        contents := ((conversation created ++ conversation request).map GeminiContent.fromChatMessage).map
          GeminiContent.toValue
        maxOutputTokens := some (.int (request.maxTokens.getD 4096).toInt)
        temperature := givenValue ((request.parameters.get "temperature").map floats.widened)
        topP := none
        topK := none
        stopSequences := none
        seed := none
        repetitionPenalty := none
        tools := none } := by
  have hmessage : cachedMessage = GeminiContent.toValue ∘ GeminiContent.fromChatMessage := funext cachedMessage_eq
  simp [geminiView, given, generationField, contentsOf, generateWithCache, createCachedContent,
    GenerateWithCacheRequest.toValue, CreateCachedContentRequest.toValue, givenValue_map, givenValue_some,
    givenValue_getD, hmessage, Option.map_or]
  exact rfl

/-! ## When both say the same -/

/-- Texts that are joined are longer than the first of them. -/
theorem ne_append_break (first rest : String) : first ≠ first ++ "\n\n" ++ rest := by
  intro heq
  have hlength := congrArg String.length heq
  have hbreak : "\n\n".length = 2 := rfl
  rw [String.length_append, String.length_append] at hlength
  omega

theorem systemInstruction_iff (texts cached : List String) :
    texts.head?.or cached.head? = (if texts.isEmpty then none else some ("\n\n".intercalate texts))
      ↔ texts.length ≤ 1 ∧ (texts = [] → cached = []) := by
  match texts with
  | [] => simp [List.head?_eq_none_iff]
  | [text] => simp
  | first :: second :: rest => simp [ne_append_break]

/-- A call beside cached content says what the one without it says, exactly when the content suffices. -/
theorem generateWithCache_view_iff (floats : FloatTexts) (model : Model) (created request : ChatCompletionRequest)
    (ttl : Option ℚ≥0) (cachedContentId : String) :
    geminiView (some (createCachedContent model created ttl).toValue)
          (generateWithCache floats request cachedContentId).toValue
        = geminiView none ((GeminiChatRequest.fromChatRequest request).toValue floats)
      ↔ CacheSuffices floats created request := by
  have hsystem := systemInstruction_iff (systemTexts request) (systemTexts created)
  have hstr : Function.Injective (Option.map Json.str) := Option.map_injective fun _ _ h => Json.str.inj h
  rw [geminiView_generateWithCache, geminiView_chatRequest, GeminiView.mk.injEq]
  simp only [GeminiChatRequest.fromChatRequest, hstr.eq_iff, hsystem, List.map_append, List.append_left_eq_self,
    List.map_eq_nil_iff, Option.map_some, true_and, eq_comm (a := (none : Option Json)), Option.map_eq_none_iff]
  constructor
  · rintro ⟨⟨hone, hnone⟩, hcontents, htemperature, htopP, htopK, hstop, hseed, hpenalty, htools⟩
    refine ⟨hcontents, hone, hnone, htemperature, htopP, htopK, hstop, hseed, hpenalty, ?_⟩
    by_contra hsearch
    simp [hsearch] at htools
  · intro h
    exact ⟨⟨h.system, h.cachedSystem⟩, h.contents, h.temperature, h.topP, h.topK, h.stop, h.seed, h.repetitionPenalty,
      by simp [h.tools]⟩

/-! ## A greeting that was cached -/

/-- A request with one word. -/
def greetingRequest : ChatCompletionRequest where
  model := "gemini-1.5-pro"
  messages := [⟨"user", some [.text "hi"], none, none, none, none⟩]
  stream := none
  maxTokens := none
  tools := none
  responseFormat := none
  parameters := .obj []

/-- Floats as they are printed at 0.7 and at all that has one text in both widths. -/
def sampleFloats : FloatTexts where
  single := id
  widened
    | .float "0.7" => .float "0.699999988079071"
    | json => json

/-- A temperature of 0.7 goes out as two different numbers. -/
example : ¬ CacheSuffices sampleFloats { greetingRequest with messages := [] }
    { greetingRequest with parameters := .obj [("temperature", .float "0.7")] } := by
  intro h
  have hliterals : ("0.699999988079071" : String) ≠ "0.7" := by decide
  exact hliterals (Json.float.inj (Option.some.inj h.temperature))

/-- The content of a request beside the request tells its conversation twice. -/
theorem generateWithCache_repeats :
    ¬ ∀ (model : Model) (request : ChatCompletionRequest) (ttl : Option ℚ≥0) (cachedContentId : String),
      geminiView (some (createCachedContent model request ttl).toValue)
          (generateWithCache sampleFloats request cachedContentId).toValue
        = geminiView none ((GeminiChatRequest.fromChatRequest request).toValue sampleFloats) := by
  intro hagree
  have hview := hagree default greetingRequest none ""
  have hcontents := congrArg (fun view => view.contents.length) hview
  rw [geminiView_generateWithCache, geminiView_chatRequest] at hcontents
  exact absurd hcontents (by decide)

end GeminiProvider

end Godwit
