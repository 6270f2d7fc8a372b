import Godwit.Core.Chat

set_option autoImplicit false

/-! # Chat requests as documents (`godwit-core/src/lib.rs`)

How the request types are read from JSON and written to it: the derived codecs of the structures and
enumerations, and the hand-written one of message contents. A reader is `none` where the document is
refused. A number that is read as a float is kept as it is written, when the float is finite. -/

namespace Godwit

/-! ## Derived codecs -/

/-- A `Deserialize` implementation, without the text of its error. -/
abbrev Decoder (α : Type) := Json → Option α

/-- The fields of a derived structure: an object, or an array that has all of them in order. -/
def structFields (names : List String) : Decoder (String → Option Json)
  | .obj fields => some fun name => lookupField name fields
  | .arr items =>
    if items.length = names.length then some fun name => lookupField name (names.zip items) else none
  | _ => none

/-- A field without a default. -/
def requiredField {α : Type} (decode : Decoder α) (field : Option Json) : Option α := field.bind decode

/-- A field that is null is not given. -/
def givenValue : Option Json → Option Json
  | some .null => none
  | field => field

theorem givenValue_some {value : Json} (hvalue : value ≠ .null) : givenValue (some value) = some value := by
  cases value with
  | null => exact absurd rfl hvalue
  | _ => rfl

/-- An `Option` is `None` when the field is absent or null. -/
def optionalDecode {α : Type} (decode : Decoder α) : Option Json → Option (Option α)
  | none => some none
  | some .null => some none
  | some value => (decode value).map some

/-- The `Deserialize` of `bool`. -/
def decodeBool : Decoder Bool
  | .bool b => some b
  | _ => none

/-- The `Deserialize` of `i32`: a number with a point is refused. -/
def decodeI32 : Decoder Int32
  | .int n => if -2 ^ 31 ≤ n ∧ n < 2 ^ 31 then some (Int32.ofInt n) else none
  | _ => none

/-- The `Deserialize` of `Vec`. -/
def decodeList {α : Type} (decode : Decoder α) : Decoder (List α)
  | .arr items => items.mapM decode
  | _ => none

/-! ## Content of messages -/

/-- The derived `Deserialize` of `ImageUrl`. -/
def decodeImageUrl : Decoder ChatContentPart := fun json => do
  let field ← structFields ["url", "detail"] json
  let url ← requiredField Json.asStr (field "url")
  let detail ← optionalDecode Json.asStr (field "detail")
  pure (.imageUrl url detail)

/-- A variant with its fields, as the one entry of an object. -/
def decodeContentPart : Decoder ChatContentPart
  | .obj [(variant, .obj fields)] =>
    if variant = "text" then (requiredField Json.asStr (lookupField "text" fields)).map .text
    else if variant = "image_url" then requiredField decodeImageUrl (lookupField "image_url" fields)
    else none
  | _ => none

/-- Why a content is refused: a message of its own, or the data does not have the type that is read. -/
inductive ContentError where
  | custom (msg : String)
  | data
  deriving DecidableEq, Repr

/-- An element of the array: a text, or an object that is one part. -/
def decodeContentItem : Json → Except ContentError ChatContent
  | .str s => .ok (.text s)
  | .obj fields =>
    match decodeContentPart (.obj fields) with
    | some part => .ok (.parts [part])
    | none => .error .data
  | _ => .error (.custom "array element must be string or object")

/-- The elements in order: the first fault ends the array. -/
def decodeContentItems : List Json → Except ContentError (List ChatContent)
  | [] => .ok []
  | v :: rest => do
    let item ← decodeContentItem v
    let items ← decodeContentItems rest
    .ok (item :: items)

/-- `deserialize_chat_content`. -/
def deserializeChatContent : Json → Except ContentError (Option (List ChatContent))
  | .null => .ok none
  | .str s => .ok (some [.text s])
  | .arr items => (decodeContentItems items).map some
  -- An object is neither a string nor a list of parts, the two variants of `ChatContent`.
  | .obj _ => .error .data
  | _ => .error (.custom "content must be a string, array, or object")

/-- The `Serialize` of an optional text. -/
def encodeOption (value : Option String) : Json := (value.map Json.str).getD .null

/-- The derived `Serialize` of a part, tagged with the name of its variant. -/
def encodeContentPart : ChatContentPart → Json
  | .text text => .obj [("text", .obj [("text", .str text)])]
  | .imageUrl url detail =>
    .obj [("image_url", .obj [("image_url", .obj [("detail", encodeOption detail), ("url", .str url)])])]

/-- The `Serialize` of a content item: a list of parts is an array in the array. -/
def encodeContentItem : ChatContent → Json
  | .text text => .str text
  | .parts parts => .arr (parts.map encodeContentPart)

/-- One text is written as a string, everything else as an array. -/
def serializeChatContent : Option (List ChatContent) → Json
  | none => .null
  | some [.text text] => .str text
  | some contents => .arr (contents.map encodeContentItem)

/-! ## Messages and tools -/

/-- The derived `Deserialize` of `FunctionCall`. -/
def decodeFunctionCall : Decoder FunctionCall := fun json => do
  let field ← structFields ["name", "arguments"] json
  let name ← requiredField Json.asStr (field "name")
  let arguments ← requiredField Json.asStr (field "arguments")
  pure ⟨name, arguments⟩

/-- The derived `Deserialize` of `ToolCall`. -/
def decodeToolCall : Decoder ToolCall := fun json => do
  let field ← structFields ["id", "type", "function"] json
  let id ← requiredField Json.asStr (field "id")
  let type ← requiredField Json.asStr (field "type")
  let function ← requiredField decodeFunctionCall (field "function")
  pure ⟨id, type, function⟩

/-- `CacheControl`, which is its type. -/
def decodeCacheControl : Decoder String := fun json => do
  let field ← structFields ["type"] json
  requiredField Json.asStr (field "type")

/-- The derived `Deserialize` of `ChatMessage`, with the content read by its own function. -/
def decodeMessage : Decoder ChatMessage := fun json => do
  let field ← structFields ["role", "content", "name", "tool_calls", "tool_call_id", "cache_control"] json
  let role ← requiredField Json.asStr (field "role")
  let content ← match field "content" with
    | none => some none
    | some value => (deserializeChatContent value).toOption
  let name ← optionalDecode Json.asStr (field "name")
  let toolCalls ← optionalDecode (decodeList decodeToolCall) (field "tool_calls")
  let toolCallId ← optionalDecode Json.asStr (field "tool_call_id")
  let cacheControl ← optionalDecode decodeCacheControl (field "cache_control")
  pure ⟨role, content, name, toolCalls, toolCallId, cacheControl⟩

/-- The derived `Deserialize` of `FunctionDefinition`. -/
def decodeFunctionDefinition : Decoder FunctionDefinition := fun json => do
  let field ← structFields ["name", "description", "parameters"] json
  let name ← requiredField Json.asStr (field "name")
  let description ← optionalDecode Json.asStr (field "description")
  let parameters ← optionalDecode some (field "parameters")
  pure ⟨name, description, parameters⟩

/-- The derived `Deserialize` of `Tool`. -/
def decodeTool : Decoder Tool := fun json => do
  let field ← structFields ["type", "function"] json
  let type ← requiredField Json.asStr (field "type")
  let function ← requiredField decodeFunctionDefinition (field "function")
  pure ⟨type, function⟩

/-- Which tool the model has to call. -/
inductive ToolChoice where
  | none
  | auto
  | required
  | function (name : String)
  deriving DecidableEq, Repr

/-- A variant without fields. -/
def decodeUnitChoice (variant : String) : Option ToolChoice :=
  if variant = "none" then some .none
  else if variant = "auto" then some .auto
  else if variant = "required" then some .required
  else Option.none

/-- A variant is its name, or the one entry of an object. -/
def decodeToolChoice : Decoder ToolChoice
  | .str variant => decodeUnitChoice variant
  | .obj [(variant, value)] =>
    if variant = "function" then do
      let field ← structFields ["function"] value
      let function ← field "function"
      let field ← structFields ["name"] function
      (requiredField Json.asStr (field "name")).map .function
    else
      match value with
      | .null => decodeUnitChoice variant
      | _ => Option.none
  | _ => Option.none

/-- The derived `Serialize` of `ToolChoice`: a named function has the name of its variant around it. -/
def encodeToolChoice : ToolChoice → Json
  | .none => .str "none"
  | .auto => .str "auto"
  | .required => .str "required"
  | .function name => .obj [("function", .obj [("function", .obj [("name", .str name)])])]

/-- The tag of an internally tagged enumeration, and what is left for its variant. -/
def tagged : Decoder (String × Json)
  | .obj fields =>
    ((lookupField "type" fields).bind Json.asStr).map fun tag => (tag, .obj (fields.filter (·.1 ≠ "type")))
  | .arr (.str tag :: rest) => some (tag, .arr rest)
  | _ => none

/-- The derived `Deserialize` of `JsonSchema`. -/
def decodeJsonSchema : Decoder JsonSchema := fun json => do
  let field ← structFields ["name", "schema", "strict"] json
  let name ← requiredField Json.asStr (field "name")
  let schema ← optionalDecode some (field "schema")
  let strict ← optionalDecode decodeBool (field "strict")
  pure ⟨name, schema, strict⟩

/-- The derived `Deserialize` of `ResponseFormat`, which has its tag inside. -/
def decodeResponseFormat : Decoder ResponseFormat := fun json => do
  let (tag, rest) ← tagged json
  if tag = "text" then (structFields [] rest).map fun _ => .text
  else if tag = "json_object" then (structFields [] rest).map fun _ => .jsonObject
  else if tag = "json_schema" then do
    let field ← structFields ["json_schema"] rest
    (requiredField decodeJsonSchema (field "json_schema")).map .jsonSchema
  else none

/-! ## Requests -/

/-- A value that is written again as it was read. -/
def unchanged {α : Type} (decode : Decoder α) : Decoder Json := fun json => (decode json).map fun _ => json

/-- The number of a literal without its sign: its digits, and the power of ten that they count. -/
def literalScale (literal : String) : Nat × Int :=
  let (mantissa, exponent) := literal.toList.span fun c => c ≠ 'e' ∧ c ≠ 'E'
  let power : Int := match exponent.drop 1 with
    | '-' :: digits => -Nat.ofDigitChars 10 digits 0
    | digits => Nat.ofDigitChars 10 (digits.filter Char.isDigit) 0
  let places := ((mantissa.span (· ≠ '.')).2.drop 1).length
  (Nat.ofDigitChars 10 (mantissa.filter Char.isDigit) 0, power - places)

/-- What is not below it rounds to an `f64` that is nearer to `2 ^ 128` than to the largest `f32`, or as near. -/
def singleBound : Nat := 2 ^ 128 - 2 ^ 103 - 2 ^ 74

/-- Whether so many units of a power of ten make a finite `f32`. -/
def isFiniteSingle : Nat × Int → Bool
  | (digits, .ofNat power) => digits * 10 ^ power < singleBound
  | (digits, .negSucc places) => digits < singleBound * 10 ^ (places + 1)

/-- A number that is read as an `f32`. What is too large for one is read as infinite, and written as `null`. -/
def decodeSingle : Decoder Json
  | .int n => some (if isFiniteSingle (n.natAbs, 0) then .int n else .null)
  | .float literal => some (if isFiniteSingle (literalScale literal) then .float literal else .null)
  | _ => none

example : decodeSingle (.float "-3.4e38") = some (.float "-3.4e38") ∧ decodeSingle (.float "1e40") = some .null :=
  ⟨rfl, rfl⟩

/-- The `Deserialize` of `stop`: a text or a list of texts. -/
def decodeStop : Decoder Unit
  | .str _ => some ()
  | json => (decodeList Json.asStr json).map fun _ => ()

/-- The `Deserialize` of `logit_bias`. -/
def decodeLogitBias : Decoder Unit
  | .obj fields => (fields.mapM fun f => decodeI32 f.2).map fun _ => ()
  | _ => none

/-- `ThinkingConfig`, as it is written again. -/
def decodeThinking : Decoder Json := fun json => do
  let field ← structFields ["type", "budget_tokens"] json
  let type ← requiredField Json.asStr (field "type")
  let budgetTokens ← requiredField decodeI32 (field "budget_tokens")
  pure (.obj [("budget_tokens", .int budgetTokens.toInt), ("type", .str type)])

/-- `ReasoningConfig`, as it is written again. -/
def decodeReasoning : Decoder Json := fun json => do
  let field ← structFields ["effort", "thinking"] json
  let effort ← optionalDecode Json.asStr (field "effort")
  let thinking ← optionalDecode decodeThinking (field "thinking")
  pure (.obj [("effort", encodeOption effort), ("thinking", thinking.getD .null)])

/-- The optional fields that the endpoints only hand on: how each is read, and written again. -/
def parameterFields : List (String × Decoder Json) :=
  [("temperature", decodeSingle), ("top_p", decodeSingle), ("top_k", unchanged decodeI32),
   ("frequency_penalty", decodeSingle), ("presence_penalty", decodeSingle),
   ("repetition_penalty", decodeSingle), ("stop", unchanged decodeStop),
   ("seed", unchanged Json.asI64), ("n", unchanged decodeI32), ("logprobs", unchanged decodeBool),
   ("top_logprobs", unchanged decodeI32), ("logit_bias", unchanged decodeLogitBias),
   ("user", unchanged Json.asStr), ("tool_choice", (Option.map encodeToolChoice) ∘ decodeToolChoice),
   ("parallel_tool_calls", unchanged decodeBool), ("reasoning", decodeReasoning)]

/-- The fields of a request in the order of the structure. -/
def requestFields : List String :=
  ["model", "messages", "stream", "temperature", "max_tokens", "top_p", "top_k", "frequency_penalty",
   "presence_penalty", "repetition_penalty", "stop", "seed", "n", "logprobs", "top_logprobs", "logit_bias",
   "user", "tools", "tool_choice", "parallel_tool_calls", "response_format", "reasoning"]

/-- One of the handed-on fields, when the request has it. -/
def decodeParameter (field : String → Option Json) (parameter : String × Decoder Json) :
    Option (String × Option Json) :=
  (optionalDecode parameter.2 (field parameter.1)).map fun value => (parameter.1, value)

/-- The derived `Deserialize` of `ChatCompletionRequest`. -/
def decodeRequest : Decoder ChatCompletionRequest := fun json => do
  let field ← structFields requestFields json
  let model ← requiredField Json.asStr (field "model")
  let messages ← requiredField (decodeList decodeMessage) (field "messages")
  let stream ← optionalDecode decodeBool (field "stream")
  let maxTokens ← optionalDecode decodeI32 (field "max_tokens")
  let tools ← optionalDecode (decodeList decodeTool) (field "tools")
  let responseFormat ← optionalDecode decodeResponseFormat (field "response_format")
  let parameters ← parameterFields.mapM (decodeParameter field)
  pure ⟨model, messages, stream, maxTokens, tools, responseFormat,
    .object (parameters.filterMap fun p => p.2.map fun value => (p.1, value))⟩

end Godwit
