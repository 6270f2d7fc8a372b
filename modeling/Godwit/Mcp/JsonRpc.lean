import Mathlib.Data.List.DropRight
import Godwit.Core.ChatWire
import Godwit.Lib.Utf8

set_option autoImplicit false

/-! # JSON-RPC messages and frames (`godwit-mcp/src/jsonrpc.rs`)

The messages that a client and a tool server exchange, one to a line, and the reader that finds the lines in
what a pipe delivers. The fields of an object are kept in key order, also where a structure is written in the
order of its fields. -/

namespace Godwit

/-! ## Messages -/

/-- A JSON-RPC request. -/
structure RpcRequest where
  id : Int64
  method : String
  params : Option Json

/-- The error of a response. -/
structure RpcError where
  code : Int64
  message : String
  data : Option Json

/-- A JSON-RPC response. -/
inductive RpcResponse where
  | result (id : Int64) (result : Json)
  | error (id : Int64) (error : RpcError)

/-- The id of the request that is answered. -/
def RpcResponse.id : RpcResponse → Int64
  | .result id _ => id
  | .error id _ => id

/-- A JSON-RPC notification. -/
structure RpcNotification where
  method : String
  params : Option Json

/-- The messages of the protocol. -/
inductive RpcMessage where
  | request (request : RpcRequest)
  | response (response : RpcResponse)
  | notification (notification : RpcNotification)

/-! ## Messages as documents -/

/-- A field that is not written when there is no value for it. -/
def skippedField (name : String) (value : Option Json) : List (String × Json) :=
  value.toList.map fun value => (name, value)

/-- The derived `Serialize` of `RpcRequest`: absent parameters are left out. -/
def RpcRequest.toValue (request : RpcRequest) : Json :=
  .object ([("id", .int request.id.toInt), ("method", .str request.method)] ++ skippedField "params" request.params)

/-- The derived `Serialize` of `RpcError`. -/
def RpcError.toValue (error : RpcError) : Json :=
  .object ([("code", .int error.code.toInt), ("message", .str error.message)] ++ skippedField "data" error.data)

/-- The derived `Serialize` of `RpcResponse`, which has no tag of the variant. -/
def RpcResponse.toValue : RpcResponse → Json
  | .result id value => .object [("id", .int id.toInt), ("result", value)]
  | .error id e => .object [("id", .int id.toInt), ("error", e.toValue)]

/-- The derived `Serialize` of `RpcNotification`. -/
def RpcNotification.toValue (notification : RpcNotification) : Json :=
  .object ([("method", .str notification.method)] ++ skippedField "params" notification.params)

/-- An untagged enumeration is written as its variant is. -/
def RpcMessage.toValue : RpcMessage → Json
  | .request r => r.toValue
  | .response r => r.toValue
  | .notification n => n.toValue

/-- The `Deserialize` of `i64`. -/
def decodeI64 : Decoder Int64 := fun json => json.asI64.map Int64.ofInt

/-- The derived `Deserialize` of `RpcRequest`. -/
def decodeRpcRequest : Decoder RpcRequest := fun json => do
  let field ← structFields ["id", "method", "params"] json
  let id ← requiredField decodeI64 (field "id")
  let method ← requiredField Json.asStr (field "method")
  let params ← optionalDecode some (field "params")
  pure ⟨id, method, params⟩

/-- The derived `Deserialize` of `RpcError`. -/
def decodeRpcError : Decoder RpcError := fun json => do
  let field ← structFields ["code", "message", "data"] json
  let code ← requiredField decodeI64 (field "code")
  let message ← requiredField Json.asStr (field "message")
  let data ← optionalDecode some (field "data")
  pure ⟨code, message, data⟩

/-- The variants of an untagged enumeration are tried in turn, and these two are read from objects only. -/
def decodeRpcResponse : Decoder RpcResponse
  | .obj fields =>
    (do
      let id ← requiredField decodeI64 (lookupField "id" fields)
      let result ← requiredField some (lookupField "result" fields)
      pure (.result id result))
    <|> do
      let id ← requiredField decodeI64 (lookupField "id" fields)
      let error ← requiredField decodeRpcError (lookupField "error" fields)
      pure (.error id error)
  | _ => none

/-- The derived `Deserialize` of `RpcNotification`. -/
def decodeRpcNotification : Decoder RpcNotification := fun json => do
  let field ← structFields ["method", "params"] json
  let method ← requiredField Json.asStr (field "method")
  let params ← optionalDecode some (field "params")
  pure ⟨method, params⟩

/-- The derived `Deserialize` of `RpcMessage`, which tries the variants in order. -/
def decodeRpcMessage : Decoder RpcMessage := fun json =>
  (decodeRpcRequest json).map .request
    <|> (decodeRpcResponse json).map .response
    <|> (decodeRpcNotification json).map .notification

/-! ## Frames -/

/-- Why a line is no message. -/
inductive FrameError where
  | parse (message : String)
  | notAnObject (text : String)

/-- `serde_json`, with what it says of bytes that hold no document, and of a document that is no message. -/
structure RpcSerde where
  json : JsonCodec
  sliceError : List UInt8 → String
  valueError : Json → String

/-- The bytes of a text. -/
def utf8Bytes (s : String) : List UInt8 := s.toList.flatMap String.utf8EncodeChar

section Frames

variable (serde : RpcSerde)

/-- `serde_json::from_slice`. -/
def RpcSerde.fromSlice (bytes : List UInt8) : Option Json :=
  (decodeUtf8 bytes).bind fun text => serde.json.fromStr (String.ofList text)

/-- `to_frame`: one line. -/
def RpcMessage.toFrame (message : RpcMessage) : String := serde.json.toString message.toValue ++ "\n"

/-- `from_frame`: a document that is no object is told apart from no document. -/
def RpcMessage.fromFrame (line : List UInt8) : Except FrameError RpcMessage :=
  match serde.fromSlice line with
  | none => .error (.parse (serde.sliceError line))
  | some (.obj fields) =>
    match decodeRpcMessage (.obj fields) with
    | none => .error (.parse (serde.valueError (.obj fields)))
    | some message => .ok message
  | some other => .error (.notAnObject (serde.json.toString other))

/-! ## The reader of frames -/

/-- The bytes that no line break has followed yet. -/
structure FrameReader where
  buffer : List UInt8

/-- `FrameReader::new`. -/
def FrameReader.new : FrameReader := ⟨[]⟩

/-- A byte that `trim_buf` removes; the line break is not among them. -/
def trimmedByte (b : UInt8) : Bool := b == 0x20 || b == 0x09 || b == 0x0D

/-- Spaces, tabs and carriage returns are taken off both ends. -/
def trimBuf (buf : List UInt8) : List UInt8 := (buf.dropWhile trimmedByte).rdropWhile trimmedByte

/-- Where the next line break is. -/
def nextLineOffset (buffer : List UInt8) : Option Nat := buffer.findIdx? (· == 0x0A)

/-- The loop that drains the buffer: `rounds` bounds its iterations, and each drains a byte at least. The line
    that is trimmed is drained with its line feed. -/
def drainLines : Nat → List UInt8 → List (Except FrameError RpcMessage) × List UInt8
  | 0, buffer => ([], buffer)
  | rounds + 1, buffer =>
    match nextLineOffset buffer with
    | none => ([], buffer)
    | some newline =>
      let trimmed := trimBuf (buffer.take (newline + 1))
      let later := drainLines rounds (buffer.drop (newline + 1))
      if trimmed.isEmpty then later
      else (RpcMessage.fromFrame serde trimmed :: later.1, later.2)

/-- `push`: the messages of the complete lines, and the rest. -/
def FrameReader.push (reader : FrameReader) (bytes : List UInt8) :
    List (Except FrameError RpcMessage) × FrameReader :=
  let buffer := reader.buffer ++ bytes
  let drained := drainLines serde buffer.length buffer
  (drained.1, ⟨drained.2⟩)

/-- What comes of chunks that are fed in order. -/
def FrameReader.pushAll : FrameReader → List (List UInt8) → List (Except FrameError RpcMessage)
  | _, [] => []
  | reader, chunk :: chunks =>
    (reader.push serde chunk).1 ++ FrameReader.pushAll (reader.push serde chunk).2 chunks

end Frames

end Godwit
