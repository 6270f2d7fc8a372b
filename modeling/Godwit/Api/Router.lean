import Godwit.Api.AnthropicProxy

set_option autoImplicit false

/-! # Batches and routes (`router` of `proxy.rs`, `model_scope` of `middleware.rs`) -/

namespace Godwit

/-! ## Passthrough -/

/-- A 2xx status. -/
def isSuccess (status : Nat) : Bool := 200 ≤ status && status ≤ 299

/-- `path.trim_start_matches('/')` under the base URL of the upstream. -/
def upstreamUrl (baseUrl path : String) : String :=
  baseUrl ++ "/" ++ String.ofList (path.toList.dropWhile (· = '/'))

/-- `body["model"] = …` on a JSON value; indexing anything but an object or `null` panics. -/
def setModel (body : Json) (model : String) : Option Json :=
  match body with
  | .obj fields => some (.obj (setField "model" (.str model) fields))
  | .null => some (.obj [("model", .str model)])
  | _ => none

/-- The reply of the upstream as the handler sees it. -/
def readReply : UpstreamReply → App Fault Json
  | .failed msg => Program.throw (.api (.core (.provider msg)))
  | .response status text value =>
    if isSuccess status then
      match value with
      | .ok value => pure value
      | .error e =>
        Program.throw
          (.api (.core (.provider ("failed to deserialize upstream response: " ++ e))))
    else Program.throw (.api (mapProviderError (.http status text)))

/-- `forward_openai_passthrough`: the body goes to the provider under its own model id. -/
def forwardOpenaiPassthrough (method path : String) (body : Option Json) (modelRef : String)
    (capability : Capability) : App Fault Json := do
  let resolved ← orThrow (fun e => .api (.fromCore e)) (← ask (.resolve modelRef capability))
  let url := upstreamUrl resolved.resolvedCredentials.baseUrl path
  match body with
  | none => readReply (← ask (.passthrough resolved method url none))
  | some body =>
    let body ← orPanic (setModel body resolved.model.providerModelId)
    readReply (← ask (.passthrough resolved method url (some body)))

/-! ## Batches -/

/-- `extract_model_from_body` of `proxy.rs`. -/
def batchModel (body : Json) : Except ApiError String :=
  match (body.get "model").bind Json.asStr with
  | some model => .ok model
  | none => .error (.badRequest "missing 'model' field")

/-- `create_batch`. -/
def createBatch (body : Json) : App Fault Response := do
  let model ← orThrow Fault.api (batchModel body)
  let response ← forwardOpenaiPassthrough "POST" "batches" (some body) model .chat
  pure (.json 201 response)

/-- The batch requests without a body of their own take the model from the query. -/
def queryBatch (method path model : String) : App Fault Response := do
  let response ← forwardOpenaiPassthrough method path none model .chat
  pure (.json 200 response)

/-- `list_batches`. -/
def listBatches (model : String) : App Fault Response := queryBatch "GET" "batches" model

/-- `get_batch`: the id is spliced into the path. -/
def getBatch (batchId model : String) : App Fault Response :=
  queryBatch "GET" ("batches/" ++ batchId) model

/-- `delete_batch`. -/
def deleteBatch (batchId model : String) : App Fault Response :=
  queryBatch "DELETE" ("batches/" ++ batchId) model

/-- `cancel_batch`. -/
def cancelBatch (batchId model : String) : App Fault Response :=
  queryBatch "POST" ("batches/" ++ batchId ++ "/cancel") model

/-- `get_batch_results`. -/
def getBatchResults (batchId model : String) : App Fault Response :=
  queryBatch "GET" ("batches/" ++ batchId ++ "/results") model

/-! ## Scope -/

/-- `extract_model_from_body` of `middleware.rs`. -/
def extractModelFromBody (state : AppState) (body : Bytes) : Option String :=
  (state.body.value body).bind fun v => (v.get "model").bind Json.asStr

/-- `is_model_allowed`: an empty list allows every model. -/
def isModelAllowed (apiKey : ApiKey) (model : String) : Bool :=
  apiKey.allowedModels.isEmpty || apiKey.allowedModels.any (· == model)

/-- `model_scope` lets the request through to its handler. -/
def scopePasses (state : AppState) (apiKey : ApiKey) (body : Bytes) : Bool :=
  match extractModelFromBody state body with
  | some model => isModelAllowed apiKey model
  | none => true

/-- `model_scope`: the middleware that looks for the model in the body. -/
def modelScope (state : AppState) (apiKey : ApiKey) (body : Bytes) (next : App Fault Response) :
    App Fault Response :=
  if scopePasses state apiKey body then next else Program.throw (.api .forbidden)

/-! ## Routes -/

/-- The requests of `proxy::router` that may reach a provider, after axum has taken them apart. The
    batch routes are scoped by their body, whatever the method. -/
inductive ProxyRequest where
  | chat (tags : Option String) (body : Bytes)
  | embeddings (req : EmbeddingRequest)
  | imageGenerations (req : ImageGenerationRequest)
  | audioSpeech (req : AudioTtsRequest)
  | audioTranscriptions (body : Multipart)
  | imageEdits (body : Multipart)
  | createBatch (body : Bytes)
  | listBatches (body : Bytes) (model : String)
  | deleteBatch (body : Bytes)
  | getBatch (body : Bytes) (batchId model : String)
  | cancelBatch (body : Bytes) (batchId model : String)
  | getBatchResults (body : Bytes) (batchId model : String)

/-- The routes of the proxy; `model_scope` is in front of the chat and batch routes. -/
def serveProxy (state : AppState) (apiKey : ApiKey) : ProxyRequest → App Fault Response
  | .chat tags body => modelScope state apiKey body (chatCompletions state apiKey tags body)
  | .embeddings req => embeddings state apiKey req
  | .imageGenerations req => imageGenerations state apiKey req
  | .audioSpeech req => audioSpeech state apiKey req
  | .audioTranscriptions body => audioTranscriptions state apiKey body
  | .imageEdits body => imageEdits state apiKey body
  | .createBatch body =>
    modelScope state apiKey body <|
      match state.body.value body with
      | some value => createBatch value
      | none => Program.throw (.api (.badRequest "malformed body"))
  | .listBatches body model => modelScope state apiKey body (listBatches model)
  -- the route has no path parameter, so the extractor of the batch id rejects the request
  | .deleteBatch body => modelScope state apiKey body (Program.throw (.api .internal))
  | .getBatch body batchId model => modelScope state apiKey body (getBatch batchId model)
  | .cancelBatch body batchId model => modelScope state apiKey body (cancelBatch batchId model)
  | .getBatchResults body batchId model =>
    modelScope state apiKey body (getBatchResults batchId model)

/-! ## Inference endpoints -/

/-- The requests of the inference endpoints. -/
inductive InferenceRequest where
  | chat (tags : Option String) (body : Bytes)
  | embeddings (req : EmbeddingRequest)
  | imageGenerations (req : ImageGenerationRequest)
  | audioSpeech (req : AudioTtsRequest)
  | audioTranscriptions (body : Multipart)
  | imageEdits (body : Multipart)
  | messages (req : AnthropicMessagesRequest)

/-- The handlers behind authentication that call a provider. -/
def serveInference (state : AppState) (apiKey : ApiKey) : InferenceRequest → App Fault Response
  | .chat tags body => chatCompletions state apiKey tags body
  | .embeddings req => embeddings state apiKey req
  | .imageGenerations req => imageGenerations state apiKey req
  | .audioSpeech req => audioSpeech state apiKey req
  | .audioTranscriptions body => audioTranscriptions state apiKey body
  | .imageEdits body => imageEdits state apiKey body
  | .messages req => messages state apiKey req

end Godwit
