import Godwit.Api.Chat

set_option autoImplicit false

/-! # Embeddings, images and audio (`proxy.rs`)

Five handlers with one body: resolve, check, call, and on a failure try the fallbacks of the resolved
row. `serveMedia` is that body; each handler is its own request in it. The loop over the fallbacks is
also the one of `anthropic_proxy.rs`. -/

namespace Godwit

/-! ## Fallbacks of a row -/

section Fallbacks

variable {α : Type} (capability : Capability) (admitOn : Model → App ApiError Unit)
  (attemptOn : ResolvedModel → App ProviderError α)

/-- The loop over the fallbacks, with the row that answered. It starts with the error of the first
    attempt; a rate limit on a fallback is reported in the end, before the last provider error. -/
def fallbackLoop : List String → ProviderError → Option ApiError → App ApiError (α × Model)
  | [], lastErr, rateLimitedErr =>
    Program.throw (rateLimitedErr.getD (mapProviderError lastErr))
  | fallbackId :: rest, lastErr, rateLimitedErr => do
    match ← ask (.resolve fallbackId capability) with
    | .error _ => fallbackLoop rest lastErr rateLimitedErr
    | .ok resolved =>
      match ← (admitOn resolved.model).attempt with
      | .error e => fallbackLoop rest lastErr (some e)
      | .ok () =>
        match ← (attemptOn resolved).attempt with
        | .ok a => pure (a, resolved.model)
        | .error e => fallbackLoop rest e rateLimitedErr

/-- The first attempt, then the fallbacks of the resolved row. -/
def withFallbacks (resolved : ResolvedModel) : App ApiError (α × Model) := do
  match ← (attemptOn resolved).attempt with
  | .ok a => pure (a, resolved.model)
  | .error e => fallbackLoop capability admitOn attemptOn (fallbackChain resolved.model) e none

end Fallbacks

/-! ## The common body -/

/-- What distinguishes the five handlers. -/
structure MediaRequest where
  capability : Capability
  model : String
  request : AdapterRequest
  /-- The response of the expected variant. -/
  accept : ProviderResponse → Option Response

/-- `call_embedding` and its siblings. -/
def callMedia (media : MediaRequest) (resolved : ResolvedModel) :
    App ProviderError (Response × UsageReport) := do
  let (response, usage) ← callAdapter resolved media.request
  match media.accept response with
  | some body => pure (body, usage)
  | none => Program.throw (.provider "unexpected provider response variant")

/-- The log entry of a row that served a request outside of chat. -/
def rowLog (apiKey : ApiKey) (used : Model) (capability : Capability) (streamed : Bool)
    (costUsd : Option Decimal) (durationMs : Nat) : RequestLogEntry where
  apiKeyId := apiKey.id
  userId := apiKey.userId
  organizationId := apiKey.organizationId
  teamId := apiKey.teamId
  model := used.publicId
  provider := used.provider
  providerModelId := used.providerModelId
  capability := capability.asStr
  durationMs := Int32.ofNat durationMs
  streamed := streamed
  status := "success"
  costUsd := costUsd
  tags := []
  attemptNumber := 1
  fallbackTriggered := false
  toolCallsCount := none
  agenticIteration := none

/-- Cost, log and latency of a row that served a request outside of chat. -/
def finishRow (state : AppState) (apiKey : ApiKey) (used : Model) (capability : Capability)
    (streamed : Bool) (usage : UsageReport) : App Fault Unit := do
  let costUsd ← orPanic (state.pricing.computeCost used.pricing capability usage)
  let duration ← ask .elapsed
  ask (.spawnRequestLog (rowLog apiKey used capability streamed costUsd duration))
  if used.id = Uuid.nil then pure ()
  else
    let duration ← ask .elapsed
    ask (.recordLatency used.id duration)

/-- What the media handlers share: resolve, admit, call with fallbacks, and log the row that answered. -/
def serveMedia (state : AppState) (apiKey : ApiKey) (media : MediaRequest) : App Fault Response := do
  let primary ← orThrow (fun e => .api (.fromCore e)) (← ask (.resolve media.model media.capability))
  (checkAdmission apiKey primary.model 1).mapError Fault.api
  let ((response, usage), used) ←
    (withFallbacks media.capability (fun model => checkRateLimit apiKey model 1) (callMedia media)
      primary).mapError Fault.api
  finishRow state apiKey used media.capability false usage
  pure response

/-! ## JSON bodies -/

/-- The endpoint of the request. -/
def EmbeddingRequest.media (req : EmbeddingRequest) : MediaRequest where
  capability := .embedding
  model := req.model
  request := .embedding req
  accept := fun
    | .embedding body => some (.json 200 body)
    | _ => none

/-- The endpoint of the request. -/
def ImageGenerationRequest.media (req : ImageGenerationRequest) : MediaRequest where
  capability := .imageGeneration
  model := req.model
  request := .imageGeneration req
  accept := fun
    | .image body => some (.json 200 body)
    | _ => none

/-- The endpoint of the request. -/
def AudioTtsRequest.media (req : AudioTtsRequest) : MediaRequest where
  capability := .audioTts
  model := req.model
  request := .audioTts req
  accept := fun
    | .bytes bytes contentType => some (.bytes contentType bytes)
    | _ => none

/-- `embeddings`. -/
def embeddings (state : AppState) (apiKey : ApiKey) (req : EmbeddingRequest) : App Fault Response :=
  serveMedia state apiKey req.media

/-- `image_generations`. -/
def imageGenerations (state : AppState) (apiKey : ApiKey) (req : ImageGenerationRequest) :
    App Fault Response :=
  serveMedia state apiKey req.media

/-- `audio_speech`. -/
def audioSpeech (state : AppState) (apiKey : ApiKey) (req : AudioTtsRequest) : App Fault Response :=
  serveMedia state apiKey req.media

/-! ## Multipart bodies -/

/-- A field of a form, with both readings of its content. -/
structure MultipartField where
  name : Option String
  fileName : Option String
  contentType : Option String
  text : Except String String
  bytes : Except String Bytes
  deriving Repr

/-- The fields of a multipart body as `next_field` returns them. -/
abbrev Multipart := List (Except String MultipartField)

/-- The text of a field, empty when it cannot be read. -/
def MultipartField.textOrDefault (field : MultipartField) : String :=
  match field.text with
  | .ok text => text
  | .error _ => ""

/-- `str::parse::<i32>`. -/
def parseI32 (s : String) : Option Int32 :=
  let (sign, digits) : Int × List Char := match s.toList with
    | '-' :: rest => (-1, rest)
    | '+' :: rest => (1, rest)
    | chars => (1, chars)
  if digits.isEmpty || !digits.all Char.isDigit then none
  else
    let n := sign * digits.foldl (fun (acc : Int) c => acc * 10 + ((c.toNat - '0'.toNat : Nat) : Int)) 0
    if -2 ^ 31 ≤ n ∧ n < 2 ^ 31 then some (Int32.ofInt n) else none

/-- What `audio_transcriptions` has read so far, and its defaults. -/
structure TranscriptionForm where
  model : Option String := none
  language : Option String := none
  responseFormat : Option String := none
  fileBytes : Option Bytes := none
  filename : String := "audio"
  contentType : String := "application/octet-stream"

/-- The loop over the fields of a transcription. -/
def readTranscription : Multipart → TranscriptionForm → Except ApiError TranscriptionForm
  | [], form => .ok form
  | .error e :: _, _ => .error (.badRequest e)
  | .ok field :: rest, form =>
    match field.name.getD "" with
    | "model" => readTranscription rest { form with model := some field.textOrDefault }
    | "language" => readTranscription rest { form with language := some field.textOrDefault }
    | "response_format" =>
      readTranscription rest { form with responseFormat := some field.textOrDefault }
    | "file" =>
      match field.bytes with
      | .error e => .error (.badRequest e)
      | .ok bytes =>
        readTranscription rest
          { form with
            fileBytes := some bytes
            filename := field.fileName.getD "audio"
            contentType := field.contentType.getD "application/octet-stream" }
    | _ => readTranscription rest form

/-- The request of a multipart transcription. -/
def transcriptionMedia (body : Multipart) : Except ApiError MediaRequest := do
  let form ← readTranscription body {}
  match form.model, form.fileBytes with
  | none, _ => .error (.badRequest "missing 'model' field")
  | some _, none => .error (.badRequest "missing 'file' field")
  | some model, some fileBytes =>
    .ok
      { capability := .audioStt
        model := model
        request := .audioStt ⟨model, form.language, form.responseFormat⟩ fileBytes form.filename
          form.contentType
        accept := fun
          | .audioStt body => some (.json 200 body)
          | _ => none }

/-- `audio_transcriptions`: the form is read first. -/
def audioTranscriptions (state : AppState) (apiKey : ApiKey) (body : Multipart) :
    App Fault Response := do
  serveMedia state apiKey (← orThrow Fault.api (transcriptionMedia body))

/-- What `image_edits` has read so far, and its defaults. -/
structure ImageEditForm where
  model : Option String := none
  prompt : Option String := none
  n : Option Int32 := none
  size : Option String := none
  responseFormat : Option String := none
  imageBytes : Option Bytes := none
  imageFilename : String := "image.png"
  maskBytes : Option Bytes := none

/-- The loop over the fields of an image edit. -/
def readImageEdit : Multipart → ImageEditForm → Except ApiError ImageEditForm
  | [], form => .ok form
  | .error e :: _, _ => .error (.badRequest e)
  | .ok field :: rest, form =>
    match field.name.getD "" with
    | "model" => readImageEdit rest { form with model := some field.textOrDefault }
    | "prompt" => readImageEdit rest { form with prompt := some field.textOrDefault }
    | "n" => readImageEdit rest { form with n := field.text.toOption.bind parseI32 }
    | "size" => readImageEdit rest { form with size := some field.textOrDefault }
    | "response_format" =>
      readImageEdit rest { form with responseFormat := some field.textOrDefault }
    | "image" =>
      match field.bytes with
      | .error e => .error (.badRequest e)
      | .ok bytes =>
        readImageEdit rest
          { form with
            imageBytes := some bytes
            imageFilename := field.fileName.getD "image.png" }
    | "mask" =>
      match field.bytes with
      | .error e => .error (.badRequest e)
      | .ok bytes => readImageEdit rest { form with maskBytes := some bytes }
    | _ => readImageEdit rest form

/-- The request of a multipart image edit. -/
def imageEditMedia (body : Multipart) : Except ApiError MediaRequest := do
  let form ← readImageEdit body {}
  match form.model, form.prompt, form.imageBytes with
  | none, _, _ => .error (.badRequest "missing 'model' field")
  | some _, none, _ => .error (.badRequest "missing 'prompt' field")
  | some _, some _, none => .error (.badRequest "missing 'image' field")
  | some model, some prompt, some imageBytes =>
    .ok
      { capability := .imageEdit
        model := model
        request := .imageEdit ⟨model, prompt, form.n, form.size, form.responseFormat⟩ imageBytes
          form.imageFilename form.maskBytes
        accept := fun
          | .image body => some (.json 200 body)
          | _ => none }

/-- `image_edits`: the form is read first. -/
def imageEdits (state : AppState) (apiKey : ApiKey) (body : Multipart) : App Fault Response := do
  serveMedia state apiKey (← orThrow Fault.api (imageEditMedia body))

end Godwit
