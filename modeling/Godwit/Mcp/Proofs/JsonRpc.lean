import Godwit.Lib.JsonLines
import Godwit.Mcp.JsonRpc

set_option autoImplicit false

/-! # Messages that are written and read back

A message is told by the fields it has: a method and an id, an id alone, or a method alone. So no variant is
taken for another one, and a message is read back but for a payload that is null, which is read as none
(`decodeRpcMessage_toValue`). A frame is one line with an object, and no frame has the version tag
(`toFrame_untagged`). -/

namespace Godwit

/-! ## What is read back -/

/-- The value that a message carries in an optional field. -/
def RpcMessage.payload : RpcMessage → Option Json
  | .request r => r.params
  | .response (.result _ _) => none
  | .response (.error _ e) => e.data
  | .notification n => n.params

/-- A payload of null is read as none. -/
def dropNull : Option Json → Option Json
  | some .null => none
  | payload => payload

/-- A null payload is read as none. -/
def RpcMessage.withoutNull : RpcMessage → RpcMessage
  | .request r => .request { r with params := dropNull r.params }
  | .response (.result id value) => .response (.result id value)
  | .response (.error id e) => .response (.error id { e with data := dropNull e.data })
  | .notification n => .notification { n with params := dropNull n.params }

theorem dropNull_eq_self_iff (payload : Option Json) : dropNull payload = payload ↔ payload ≠ some .null := by
  cases payload with
  | none => simp [dropNull]
  | some v => cases v <;> simp [dropNull]

theorem RpcMessage.withoutNull_eq_self_iff (message : RpcMessage) :
    message.withoutNull = message ↔ message.payload ≠ some .null := by
  rcases message with ⟨id, method, params⟩ | (⟨id, value⟩ | ⟨id, code, text, data⟩) | ⟨method, params⟩
  · simpa [RpcMessage.withoutNull, RpcMessage.payload] using dropNull_eq_self_iff params
  · simp [RpcMessage.withoutNull, RpcMessage.payload]
  · simpa [RpcMessage.withoutNull, RpcMessage.payload] using dropNull_eq_self_iff data
  · simpa [RpcMessage.withoutNull, RpcMessage.payload] using dropNull_eq_self_iff params

theorem decodeI64_toInt (n : Int64) : decodeI64 (.int n.toInt) = some n := by
  have hlow := n.le_toInt
  have hhigh := n.toInt_lt
  simp only [decodeI64, Json.asI64]
  rw [if_pos ⟨hlow, hhigh⟩, Option.map_some, Int64.ofInt_toInt]

theorem optionalDecode_some (payload : Option Json) : optionalDecode some payload = some (dropNull payload) := by
  cases payload with
  | none => rfl
  | some v => cases v <;> rfl

/-! ## The fields of a message -/

theorem lookupField_skippedField (key name : String) (value : Option Json) (fields : List (String × Json)) :
    lookupField key ((skippedField name value).reverse ++ fields)
      = (if name = key then value else none).or (lookupField key fields) := by
  rw [lookupField_append]
  cases value with
  | none => simp [skippedField, lookupField]
  | some v =>
      simp only [skippedField, Option.toList_some, List.map_singleton, List.reverse_singleton, lookupField]

attribute [local simp] structFields requiredField lookupField_skippedField lookupField_objectFields lookupField
  decodeI64_toInt optionalDecode_some Json.asStr Json.object

theorem decodeRpcRequest_toValue (r : RpcRequest) :
    decodeRpcRequest r.toValue = some { r with params := dropNull r.params } := by
  simp [decodeRpcRequest, RpcRequest.toValue]

theorem decodeRpcError_toValue (e : RpcError) :
    decodeRpcError e.toValue = some { e with data := dropNull e.data } := by
  simp [decodeRpcError, RpcError.toValue]

theorem decodeRpcNotification_toValue (n : RpcNotification) :
    decodeRpcNotification n.toValue = some { n with params := dropNull n.params } := by
  simp [decodeRpcNotification, RpcNotification.toValue]

/-- A document without a method is no request. -/
theorem decodeRpcRequest_no_method {fields : List (String × Json)} (h : lookupField "method" fields = none) :
    decodeRpcRequest (.obj fields) = none := by
  simp [decodeRpcRequest, h]

/-- A document without an id is neither a request nor a response. -/
theorem decodeRpcRequest_no_id {fields : List (String × Json)} (h : lookupField "id" fields = none) :
    decodeRpcRequest (.obj fields) = none := by
  simp [decodeRpcRequest, h]

theorem decodeRpcResponse_no_id {fields : List (String × Json)} (h : lookupField "id" fields = none) :
    decodeRpcResponse (.obj fields) = none := by
  simp [decodeRpcResponse, h]

theorem decodeRpcResponse_result (id : Int64) (value : Json) :
    decodeRpcResponse (RpcResponse.result id value).toValue = some (.result id value) := by
  simp [decodeRpcResponse, RpcResponse.toValue]

theorem decodeRpcResponse_error (id : Int64) (e : RpcError) :
    decodeRpcResponse (RpcResponse.error id e).toValue = some (.error id { e with data := dropNull e.data }) := by
  simp [decodeRpcResponse, RpcResponse.toValue, decodeRpcError_toValue]

theorem decodeRpcMessage_toValue (message : RpcMessage) :
    decodeRpcMessage message.toValue = some message.withoutNull := by
  rcases message with r | (⟨id, value⟩ | ⟨id, e⟩) | n
  · simp [decodeRpcMessage, RpcMessage.toValue, decodeRpcRequest_toValue, RpcMessage.withoutNull]
  · have hrequest : decodeRpcRequest (RpcResponse.result id value).toValue = none :=
      decodeRpcRequest_no_method (by simp)
    simp [decodeRpcMessage, RpcMessage.toValue, hrequest, decodeRpcResponse_result, RpcMessage.withoutNull]
  · have hrequest : decodeRpcRequest (RpcResponse.error id e).toValue = none :=
      decodeRpcRequest_no_method (by simp)
    simp [decodeRpcMessage, RpcMessage.toValue, hrequest, decodeRpcResponse_error, RpcMessage.withoutNull]
  · have hid : lookupField "id" (objectFields ([("method", .str n.method)] ++ skippedField "params" n.params))
        = none := by simp
    have hrequest : decodeRpcRequest n.toValue = none := decodeRpcRequest_no_id hid
    have hresponse : decodeRpcResponse n.toValue = none := decodeRpcResponse_no_id hid
    simp [decodeRpcMessage, RpcMessage.toValue, hrequest, hresponse, decodeRpcNotification_toValue,
      RpcMessage.withoutNull]

/-! ## Frames -/

/-- The object that a message is written as. -/
theorem RpcMessage.toValue_obj (message : RpcMessage) : ∃ fields, message.toValue = .obj fields := by
  rcases message with r | (⟨id, value⟩ | ⟨id, e⟩) | n <;> exact ⟨_, rfl⟩

/-- No message has a field for the version. -/
theorem RpcMessage.toValue_untagged (message : RpcMessage) : message.toValue.get "jsonrpc" = none := by
  rcases message with r | (⟨id, value⟩ | ⟨id, e⟩) | n
  · simp [RpcMessage.toValue, RpcRequest.toValue, Json.get]
  · simp [RpcMessage.toValue, RpcResponse.toValue, Json.get]
  · simp [RpcMessage.toValue, RpcResponse.toValue, Json.get]
  · simp [RpcMessage.toValue, RpcNotification.toValue, Json.get]

section Frames

variable {serde : RpcSerde}

theorem RpcSerde.fromSlice_utf8 (text : List Char) :
    serde.fromSlice (text.flatMap String.utf8EncodeChar) = serde.json.fromStr (String.ofList text) := by
  rw [RpcSerde.fromSlice, decodeUtf8_utf8, Option.bind_some]

/-- The text of a message between blanks is read as the message, but for a null payload. -/
theorem RpcMessage.fromFrame_blanks (hserde : OneLineText serde.json) {message : RpcMessage}
    (hround : serde.json.fromStr (serde.json.toString message.toValue) = some message.toValue) {after : List Char}
    (hafter : ∀ c ∈ after, jsonBlank c = true) :
    RpcMessage.fromFrame serde
        (((serde.json.toString message.toValue).toList ++ after).flatMap String.utf8EncodeChar)
      = .ok message.withoutNull := by
  obtain ⟨fields, hfields⟩ := message.toValue_obj
  have hread := hserde.blanks [] (serde.json.toString message.toValue).toList after
    (fun _ hc => absurd hc List.not_mem_nil) hafter
  rw [List.nil_append, String.ofList_toList, hround, hfields] at hread
  have hdecode := decodeRpcMessage_toValue message
  rw [hfields] at hdecode
  rw [RpcMessage.fromFrame, RpcSerde.fromSlice_utf8, hfields, hread]
  dsimp only
  rw [hdecode]

theorem RpcMessage.fromFrame_toFrame (hserde : OneLineText serde.json) {message : RpcMessage}
    (hround : serde.json.fromStr (serde.json.toString message.toValue) = some message.toValue) :
    RpcMessage.fromFrame serde (utf8Bytes (message.toFrame serde)) = .ok message.withoutNull := by
  have hframe : (message.toFrame serde).toList = (serde.json.toString message.toValue).toList ++ ['\n'] :=
    String.toList_append
  rw [utf8Bytes, hframe]
  exact RpcMessage.fromFrame_blanks hserde hround (by simp [jsonBlank])

end Frames

/-- What a frame is for: one line with an object that has the version tag, from which the message is read
    again. -/
def TaggedRoundTrip (serde : RpcSerde) (message : RpcMessage) : Prop :=
  (∃ line doc, message.toFrame serde = line ++ "\n" ∧ '\n' ∉ line.toList ∧ serde.json.fromStr line = some doc
      ∧ doc.get "jsonrpc" = some (.str "2.0"))
    ∧ RpcMessage.fromFrame serde (utf8Bytes (message.toFrame serde)) = .ok message

theorem RpcMessage.not_taggedRoundTrip {serde : RpcSerde} {message : RpcMessage}
    (hround : serde.json.fromStr (serde.json.toString message.toValue) = some message.toValue) :
    ¬ TaggedRoundTrip serde message := by
  rintro ⟨⟨line, doc, hline, -, hread, htag⟩, -⟩
  obtain rfl : serde.json.toString message.toValue = line := (String.append_left_inj "\n").1 hline
  rw [hround, Option.some_inj] at hread
  rw [← hread, message.toValue_untagged] at htag
  exact absurd htag (by simp)

/-- A frame is one line with an object, but no frame has the tag. It is read as its message exactly when the
    message has no payload that is null. -/
theorem RpcMessage.toFrame_untagged (serde : RpcSerde) (hserde : OneLineText serde.json) (message : RpcMessage)
    (hnumeric : message.toValue.numeric = true)
    (hround : serde.json.fromStr (serde.json.toString message.toValue) = some message.toValue) :
    ¬ TaggedRoundTrip serde message
      ∧ (∃ line fields, message.toFrame serde = line ++ "\n" ∧ '\n' ∉ line.toList
        ∧ serde.json.fromStr line = some (.obj fields) ∧ lookupField "jsonrpc" fields = none)
      ∧ (RpcMessage.fromFrame serde (utf8Bytes (message.toFrame serde)) = .ok message
        ↔ message.payload ≠ some .null) := by
  obtain ⟨fields, hfields⟩ := message.toValue_obj
  have huntagged := message.toValue_untagged
  rw [hfields] at huntagged
  refine ⟨RpcMessage.not_taggedRoundTrip hround,
    ⟨serde.json.toString message.toValue, fields, rfl, hserde.oneLine _ hnumeric, ?_, huntagged⟩, ?_⟩
  · rw [hround, hfields]
  · rw [RpcMessage.fromFrame_toFrame hserde hround, Except.ok.injEq]
    exact message.withoutNull_eq_self_iff

/-- `serde_json`, with its texts of errors left out. -/
def RpcSerde.plain : RpcSerde := ⟨jsonLine, fun _ => "", fun _ => ""⟩

/-- The notification that ends the handshake. -/
def initializedNotification : RpcMessage := .notification ⟨"notifications/initialized", none⟩

theorem initializedNotification_round :
    jsonLine.fromStr (jsonLine.toString initializedNotification.toValue) = some initializedNotification.toValue :=
  jsonLine.fromStr_toString _ (by decide)

/-- The notification that ends the handshake. -/
theorem initialized_untagged : ¬ TaggedRoundTrip .plain initializedNotification :=
  RpcMessage.not_taggedRoundTrip initializedNotification_round

theorem RpcMessage.toFrame_untagged_initialized :
    initializedNotification.toValue.numeric = true
      ∧ ¬ TaggedRoundTrip .plain initializedNotification
      ∧ (∃ line fields, initializedNotification.toFrame .plain = line ++ "\n" ∧ '\n' ∉ line.toList
        ∧ jsonLine.fromStr line = some (.obj fields) ∧ lookupField "jsonrpc" fields = none)
      ∧ (RpcMessage.fromFrame .plain (utf8Bytes (initializedNotification.toFrame .plain))
          = .ok initializedNotification
        ↔ initializedNotification.payload ≠ some .null) :=
  ⟨by decide, RpcMessage.toFrame_untagged .plain jsonLine_oneLineText initializedNotification (by decide)
    initializedNotification_round⟩

end Godwit
