import Godwit.Core.ChatWire
import Godwit.Lib.Text
import Godwit.Providers.Usage

set_option autoImplicit false

/-! # Batches of chat requests (`godwit-api/src/batch_parser.rs`, `batch_processor.rs`)

A batch is a text with a request to a line. Its messages stay documents: one walk over them counts tokens for
the estimate, another one builds the request that is sent. -/

namespace Godwit

/-- Why a batch is refused. -/
inductive BatchParseError where
  | invalidFormat (message : String)
  | missingField (field : String)
  | invalidModel (message : String)
  | costEstimationFailed (message : String)
  deriving DecidableEq, Repr

/-- The chat request of a line. -/
structure BatchRequestBody where
  model : String
  messages : List Json
  maxTokens : Option Int32

/-- A line of a batch. -/
structure BatchRequest where
  customId : String
  method : String
  url : String
  body : BatchRequestBody

/-! ## Reading a batch -/

/-- The derived `Deserialize` of the body: the messages default to none. -/
def decodeBatchRequestBody : Decoder BatchRequestBody := fun json => do
  let field ← structFields ["model", "messages", "max_tokens"] json
  let model ← requiredField Json.asStr (field "model")
  let messages ← Json.asArray ((field "messages").getD (.arr []))
  let maxTokens ← optionalDecode decodeI32 (field "max_tokens")
  pure ⟨model, messages, maxTokens⟩

/-- The derived `Deserialize` of a line. -/
def decodeBatchRequest : Decoder BatchRequest := fun json => do
  let field ← structFields ["custom_id", "method", "url", "body"] json
  let customId ← requiredField Json.asStr (field "custom_id")
  let method ← requiredField Json.asStr (field "method")
  let url ← requiredField Json.asStr (field "url")
  let body ← requiredField decodeBatchRequestBody (field "body")
  pure ⟨customId, method, url, body⟩

/-- `serde_json`, with what it says of a text that is no request. -/
structure BatchSerde where
  json : JsonCodec
  requestError : String → String

/-- `validate_request`: the first fault is reported. -/
def validateRequest (request : BatchRequest) : Except BatchParseError Unit :=
  if request.customId.isEmpty then .error (.missingField "custom_id")
  else if request.method ≠ "POST" then .error (.invalidFormat ("method must be POST, got: " ++ request.method))
  else if !request.url.startsWith "/" then
    .error (.invalidFormat ("url must start with '/', got: " ++ request.url))
  else if request.body.model.isEmpty then .error (.missingField "model")
  else .ok ()

/-- The lines of a batch, from the given number on. -/
def parseBatchLines (serde : BatchSerde) : Nat → List (List Char) → Except BatchParseError (List BatchRequest)
  | _, [] => .ok []
  | lineNum, line :: lines => do
    let trimmed := String.ofList (trimChars line)
    if trimmed.isEmpty then parseBatchLines serde (lineNum + 1) lines
    else
      match (serde.json.fromStr trimmed).bind decodeBatchRequest with
      | none =>
        .error (.invalidFormat
          ("line " ++ toString (lineNum + 1) ++ ": invalid JSON: " ++ serde.requestError trimmed))
      | some request =>
        validateRequest request
        let requests ← parseBatchLines serde (lineNum + 1) lines
        pure (request :: requests)

/-- `parse_jsonl`: every line that is not blank is parsed, and the first fault ends it. -/
def parseJsonl (serde : BatchSerde) (jsonlContent : String) : Except BatchParseError (List BatchRequest) :=
  parseBatchLines serde 0 (textLines jsonlContent.toList)

/-! ## The estimate -/

/-- `estimate_tokens_from_text`: four bytes a token. -/
def estimateTokensFromText (text : String) : Int32 := Int32.ofNat text.utf8ByteSize / 4

/-- A part of a content: its text is counted. -/
def addPartTokens (promptTokens : Int32) (part : Json) : Int32 :=
  match (part.get "text").bind Json.asStr with
  | some text => promptTokens + estimateTokensFromText text
  | none => promptTokens

/-- A message: the text of its content, or of the parts of it. -/
def addMessageTokens (promptTokens : Int32) (message : Json) : Int32 :=
  match message.get "content" with
  | none => promptTokens
  | some content =>
    match content.asStr with
    | some text => promptTokens + estimateTokensFromText text
    | none =>
      match content.asArray with
      | some parts => parts.foldl addPartTokens promptTokens
      | none => promptTokens

/-- Half of the prompt tokens stand in for the completion tokens when there is no limit: `* 0.5`, cut to an
    integer. -/
def estimateUsageFromRequest (request : BatchRequest) : UsageReport :=
  let promptTokens := request.body.messages.foldl addMessageTokens 0
  let maxCompletionTokens := request.body.maxTokens.getD (promptTokens / 2)
  { UsageReport.default with promptTokens := some promptTokens, completionTokens := some maxCompletionTokens }

/-! ## The estimated cost -/

/-- A line with its estimated cost. -/
structure ParsedBatchLine where
  customId : String
  method : String
  url : String
  body : BatchRequestBody
  estimatedCost : Decimal

/-- The lines and the sum of their estimates. -/
structure BatchParseResult where
  lines : List ParsedBatchLine
  totalEstimatedCost : Decimal

section Estimate

variable (P : Pricing) (pricingCatalog : String → Option Json)

/-- The loop of `estimate_cost`, with what it has so far. `none` is a panic of the decimal arithmetic. -/
def estimateLines : List BatchRequest → BatchParseResult → Option (Except BatchParseError BatchParseResult)
  | [], result => some (.ok result)
  | request :: requests, result =>
    match pricingCatalog request.body.model with
    | none => some (.error (.invalidModel ("model '" ++ request.body.model ++ "' not found in pricing catalog")))
    | some pricing => do
      match ← P.computeCost pricing .chat (estimateUsageFromRequest request) with
      | none =>
        some (.error (.costEstimationFailed ("could not compute cost for model '" ++ request.body.model ++ "'")))
      | some cost => do
        let totalCost ← P.decimal.add result.totalEstimatedCost cost
        estimateLines requests ⟨result.lines ++
          [⟨request.customId, request.method, request.url, request.body, cost⟩], totalCost⟩

/-- `estimate_cost`: no value when the arithmetic panics. -/
def estimateCost (requests : List BatchRequest) : Option (Except BatchParseError BatchParseResult) :=
  estimateLines P pricingCatalog requests ⟨[], .zero⟩

end Estimate

/-! ## The request that is sent -/

/-- A message with a role, and its content when that is a text. -/
def convertMessage (message : Json) : Option ChatMessage := do
  let role ← message.get "role"
  let role ← role.asStr
  let content := ((message.get "content").bind Json.asStr).map fun text => [ChatContent.text text]
  pure ⟨role, content, none, none, none, none⟩

/-- `convert_to_chat_request`: messages that cannot be read are left out. -/
def convertToChatRequest (body : BatchRequestBody) : ChatCompletionRequest :=
  ⟨body.model, body.messages.filterMap convertMessage, none, body.maxTokens, none, none, .obj []⟩

end Godwit
