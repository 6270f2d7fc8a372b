import Godwit.Lib.Text
import Godwit.Mcp.JsonRpc

set_option autoImplicit false

/-! # The tool server (`godwit-mcp/src/server.rs`)

The server reads requests line by line and writes one line for each answer. It offers one tool, which sends a
chat completion to the gateway; what the gateway replies is up to a world that every request changes. The writer
never fails. -/

namespace Godwit

/-- Where the gateway is and which model it is asked for by default. -/
structure GodwitGatewayConfig where
  baseUrl : String
  apiKey : String
  defaultModel : String
  deriving DecidableEq, Repr

/-- The server and its configuration. -/
structure McpServer where
  gateway : GodwitGatewayConfig
  deriving DecidableEq, Repr

/-- Why the server ends. -/
inductive McpServerError where
  | frame (error : FrameError)
  | io

/-- A request to the gateway. -/
structure GatewayPost where
  url : String
  authorization : String
  body : Json

/-- What comes back from the gateway. -/
inductive GatewayReply where
  /-- Nothing came back. -/
  | failed (error : String)
  /-- A status that is no success, with the text of the response. -/
  | refused (status : Nat) (text : String)
  /-- A success whose body is no document. -/
  | unreadable (error : String)
  | completion (value : Json)

/-- What a handler returns: a result, or a code and a message. -/
abbrev HandlerResult := Except (Int64 × String) Json

/-! ## Pointers into a document -/

/-- The index that a token of a pointer means in an array. -/
def parseIndex (token : String) : Option Nat :=
  let digits := token.toList
  if digits ≠ [] ∧ digits.all Char.isDigit ∧ (digits.head? = some '0' → digits = ['0']) then
    some (digits.foldl (fun n c => 10 * n + (c.toNat - '0'.toNat)) 0)
  else none

/-- `Value::pointer`, by the tokens of the pointer. -/
def Json.pointer : List String → Json → Option Json
  | [], value => some value
  | token :: rest, .obj fields => (lookupField token fields).bind (Json.pointer rest)
  | token :: rest, .arr items => ((parseIndex token).bind fun index => items[index]?).bind (Json.pointer rest)
  | _ :: _, _ => none

/-! ## Handlers -/

/-- The version that the server speaks. -/
def mcpProtocolVersion : String := "2024-11-05"

/-- A text field of the parameters; empty when there is none. -/
def paramText (params : Option Json) (name : String) : String :=
  ((params.bind (Json.get name)).bind Json.asStr).getD ""

/-- The check of `handle_initialize`. -/
def grantInitialize (params : Option Json) : Except (Int64 × String) Unit :=
  if paramText params "protocolVersion" = "" then .error (-32602, "missing protocolVersion") else .ok ()

/-- `handle_initialize`. -/
def handleInitialize (req : RpcRequest) : HandlerResult := do
  grantInitialize req.params
  pure (.object [
    ("protocolVersion", .str mcpProtocolVersion),
    ("capabilities", .object [("tools", .object [])]),
    ("serverInfo", .object [("name", .str "godwit-mcp"), ("version", .str "0.1.0")]),
    ("instructions", .str "Godwit MCP server. Use the godwit_chat tool to call a Godwit model.")])

/-- A schema with a type only. -/
def typedSchema (type : String) : Json := .object [("type", .str type)]

/-- The schema of an argument with a description. -/
def describedSchema (type description : String) : Json :=
  .object [("type", .str type), ("description", .str description)]

/-- The schema of a message. -/
def messageSchema : Json :=
  .object [
    ("type", .str "object"),
    ("properties", .object [
      ("role", typedSchema "string"),
      ("content", typedSchema "string"),
      ("name", typedSchema "string")]),
    ("required", .arr [.str "role", .str "content"]),
    ("additionalProperties", .bool true)]

/-- `handle_tools_list`: the one tool of the server. -/
def handleToolsList (_req : RpcRequest) : HandlerResult :=
  .ok (.object [("tools", .arr [.object [
    ("name", .str "godwit_chat"),
    ("description", .str ("Send a chat completion request to a Godwit model. Takes a `model` (optional) and a "
      ++ "`messages` array of OpenAI-style chat messages.")),
    ("inputSchema", .object [
      ("type", .str "object"),
      ("properties", .object [
        ("model", describedSchema "string" "Godwit model identifier (defaults to configured default)"),
        ("messages", .object [
          ("type", .str "array"),
          ("items", messageSchema),
          ("description", .str "OpenAI-style chat messages")])]),
      ("required", .arr [.str "messages"])])]])])

section Serve

variable {World : Type} (gateway : GatewayPost → World → GatewayReply × World)

/-- `handle_tools_call`: the arguments are sent to the gateway as a chat request. -/
def handleToolsCall (server : McpServer) (req : RpcRequest) (world : World) : HandlerResult × World :=
  let name := paramText req.params "name"
  if name ≠ "godwit_chat" then
    (.error (-32602, "unknown tool '" ++ name ++ "' (only 'godwit_chat' is available)"), world)
  else
    match req.params.bind (Json.get "arguments") with
    | none => (.error (-32602, "missing 'arguments'"), world)
    | some args =>
      let model := ((args.get "model").bind Json.asStr).getD server.gateway.defaultModel
      match args.get "messages" with
      | none => (.error (-32602, "missing 'messages' argument"), world)
      | some messages =>
        let baseUrl := String.ofList (server.gateway.baseUrl.toList.rdropWhile (· = '/'))
        let post : GatewayPost :=
          ⟨baseUrl ++ "/v1/chat/completions", "Bearer " ++ server.gateway.apiKey,
            .object [("model", .str model), ("messages", messages)]⟩
        let (reply, world) := gateway post world
        match reply with
        | .failed e => (.error (-32603, "gateway request failed: " ++ e), world)
        | .refused status text => (.error (-32603, "gateway returned " ++ toString status ++ ": " ++ text), world)
        | .unreadable e => (.error (-32603, "failed to parse gateway response: " ++ e), world)
        | .completion value =>
          let text := ((value.pointer ["choices", "0", "message", "content"]).bind Json.asStr).getD "(empty response)"
          (.ok (.object [
            ("content", .arr [.object [("type", .str "text"), ("text", .str text)]]),
            ("isError", .bool false)]), world)

/-- The response for what a handler returns. -/
def handlerResponse (id : Int64) : HandlerResult → RpcResponse
  | .ok value => .result id value
  | .error (code, message) => .error id ⟨code, message, none⟩

/-- `handle_request`. -/
def handleRequest (server : McpServer) (req : RpcRequest) (world : World) : RpcResponse × World :=
  match req.method with
  | "initialize" => (handlerResponse req.id (handleInitialize req), world)
  | "tools/list" => (handlerResponse req.id (handleToolsList req), world)
  | "tools/call" =>
    let (result, world) := handleToolsCall gateway server req world
    (handlerResponse req.id result, world)
  | other => (.error req.id ⟨-32601, "method not found: " ++ other, none⟩, world)

/-! ## The loop -/

variable (serde : RpcSerde)

/-- The lines that `read_line` returns one after another: each ends with its line feed, which the last one may
    lack. -/
def inputLines : List UInt8 → List (List UInt8)
  | [] => []
  | b :: rest =>
    if b = 0x0A then [b] :: inputLines rest
    else
      match inputLines rest with
      | [] => [[b]]
      | line :: lines => (b :: line) :: lines

/-- What the loop makes of a line: nothing of a blank one, else a message. -/
def lineMessage (line : List UInt8) : Except McpServerError (Option RpcMessage) :=
  match decodeUtf8 line with
  | none => .error .io
  | some text =>
    if (trimChars text).isEmpty then .ok none
    else
      match RpcMessage.fromFrame serde ((trimEnd text).flatMap String.utf8EncodeChar) with
      | .error e => .error (.frame e)
      | .ok message => .ok (some message)

/-- The line that is written for a response. -/
def responseFrame (response : RpcResponse) : String := serde.json.toString response.toValue ++ "\n"

/-- `serve`, on the lines of its input: the frames that it writes and how it ends. -/
def McpServer.serve (server : McpServer) : List (List UInt8) → World → List String × Except McpServerError Unit
  | [], _ => ([], .ok ())
  | line :: rest, world =>
    match lineMessage serde line with
    | .error e => ([], .error e)
    | .ok (some (.request req)) =>
      let (response, world) := handleRequest gateway server req world
      let (frames, outcome) := server.serve rest world
      (responseFrame serde response :: frames, outcome)
    -- Notifications are logged, and responses ignored.
    | .ok (some (.notification _)) | .ok (some (.response _)) | .ok none => server.serve rest world

end Serve

end Godwit
